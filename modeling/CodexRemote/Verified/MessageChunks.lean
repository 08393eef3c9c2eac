import Mathlib.Tactic.Ring
import CodexRemote.Discord.Text
import CodexRemote.Foundations.Trimmed

/-! # Splitting a text into messages

The chunks of a text hold all of it but whitespace, in order, and each of them is a content that a
message may have.  A text split exactly holds its whitespace too, and then a chunk may be blank.
-/

namespace CodexRemote.Verified.MessageChunks

open Foundations Discord

/-! ## The loop of `split_message` -/

theorem rfindNewline_lt {text : List Char} {index : Nat} (found : rfindNewline text = some index) :
    index ≤ text.length := by
  obtain ⟨_, _, rfl⟩ := Option.map_eq_some_iff.1 found
  omega

theorem splitAt_le (limit : Nat) (remaining : List Char) : splitAt limit remaining ≤ limit := by
  have short : (remaining.take limit).length ≤ limit := List.length_take_le ..
  unfold splitAt
  cases found : (rfindNewline (remaining.take limit)).filter (0 < ·) with
  | none => exact short
  | some index =>
    rw [Option.filter_eq_some_iff] at found
    exact (rfindNewline_lt found.1).trans short

theorem trimEnd_eq (text : List Char) : trimEnd text = text.rdropWhile isWhitespace := rfl

/-- The chunk that is cut off begins with what the text begins with. -/
theorem trim_take {text : List Char} {n : Nat} (trimmed : Trimmed isWhitespace text)
    (some_ : 0 < n) : trim (text.take n) = (text.take n).rdropWhile isWhitespace ∧
      Trimmed isWhitespace (trim (text.take n)) := by
  obtain ⟨c, rest, rfl, filled⟩ := trimmed.first
  obtain ⟨n, rfl⟩ : ∃ m, n = m + 1 := ⟨n - 1, by omega⟩
  have same : trim ((c :: rest).take (n + 1)) =
      ((c :: rest).take (n + 1)).rdropWhile isWhitespace := by
    rw [trim, trimEnd_eq, trimStart, List.take_succ_cons, List.dropWhile_cons_of_neg (by simp [filled])]
  refine ⟨same, ?_⟩
  rw [same]
  exact trimmed_rdropWhile filled

/-- What one round of the loop does: the chunk, a gap, and the rest -/
theorem splitLoop_round {text : List Char} {n : Nat} (trimmed : Trimmed isWhitespace text)
    (some_ : 0 < n) {chunks : List (List Char)}
    (spaced : Spaced isWhitespace (trimStart (text.drop n)) chunks) :
    Spaced isWhitespace text (trim (text.take n) :: chunks) := by
  obtain ⟨first, front, blank⟩ := rdropWhile_gap isWhitespace (text.take n)
  obtain ⟨second, back, also⟩ := dropWhile_gap isWhitespace (text.drop n)
  rw [(trim_take trimmed some_).1]
  have whole : text = [] ++ (text.take n).rdropWhile isWhitespace ++
      (first ++ (second ++ trimStart (text.drop n))) := by
    rw [trimStart, ← back, List.nil_append, ← List.append_assoc, ← front, List.take_append_drop]
  have cut := @Spaced.cons _ isWhitespace [] ((text.take n).rdropWhile isWhitespace) _ _
    (by simp) ((spaced.prepend also).prepend blank)
  rwa [← whole] at cut

variable {limit : Nat} {text : String}

/-- Every round of the loop keeps the text trimmed, so each chunk is trimmed and none is empty. -/
theorem splitLoop_spaced (positive : 0 < limit) {text : List Char}
    (trimmed : Trimmed isWhitespace text) :
    Spaced isWhitespace text (splitLoop limit positive text) ∧
      ∀ chunk ∈ splitLoop limit positive text,
        Trimmed isWhitespace chunk ∧ chunk.length ≤ limit := by
  induction text using splitLoop.induct limit positive with
  | case1 text long index ih =>
    have cut : index < text.length := (splitAt_le limit text).trans_lt long
    have some_ : 0 < index := splitAt_pos positive long
    obtain ⟨spaced, each⟩ := ih (trimmed.later cut)
    rw [splitLoop, dif_pos long]
    refine ⟨splitLoop_round trimmed some_ spaced, fun chunk member => ?_⟩
    obtain rfl | later := List.mem_cons.1 member
    · obtain ⟨same, held⟩ := trim_take trimmed some_
      refine ⟨held, ?_⟩
      have short := (List.rdropWhile_prefix isWhitespace (text.take index)).length_le
      rw [List.length_take] at short
      have least := splitAt_le limit text
      rw [same]
      omega
    · exact each chunk later
  | case2 text short none_ =>
    obtain ⟨c, rest, rfl, _⟩ := trimmed.first
    cases none_
  | case3 text short some_ =>
    rw [splitLoop, dif_neg short, if_neg some_]
    refine ⟨.single text, fun chunk member => ?_⟩
    rw [List.mem_singleton.1 member]
    exact ⟨trimmed, Nat.le_of_not_lt short⟩

/-! ## Messages -/

/-- A text that is not blank is cut into trimmed chunks within the limit, and into nothing else
but whitespace. -/
structure Chunked (text : String) (limit : Nat) (chunks : List String) : Prop where
  spaced : Spaced isWhitespace text.toList (chunks.map String.toList)
  trimmed : ∀ chunk ∈ chunks, Trimmed isWhitespace chunk.toList
  short : ∀ chunk ∈ chunks, chunk.length ≤ limit

theorem trim_isEmpty {text : List Char} :
    (trim text).isEmpty = false ↔ ∃ c ∈ text, isWhitespace c = false := by
  constructor
  · intro some_
    by_contra blank
    have all : ∀ c ∈ text, isWhitespace c = true := by
      intro c member
      cases filled : isWhitespace c with
      | true => rfl
      | false => exact absurd ⟨c, member, filled⟩ blank
    have none_ : trimStart text = [] := List.dropWhile_eq_nil_iff.2 all
    rw [trim, none_] at some_
    cases some_
  · intro visible
    have trimmed : Trimmed isWhitespace (trim text) := trimmed_trim visible
    obtain ⟨c, rest, shape, _⟩ := trimmed.first
    rw [shape]
    rfl

theorem splitMessage_blank (positive : 0 < limit)
    (blank : ¬∃ c ∈ text.toList, isWhitespace c = false) :
    splitMessage text limit positive = ["(no output)"] := by
  have none_ : (trim text.toList).isEmpty = true := by
    cases some_ : (trim text.toList).isEmpty with
    | true => rfl
    | false => exact absurd (trim_isEmpty.1 some_) blank
  rw [splitMessage]
  exact if_pos none_

theorem splitMessage_chunked (positive : 0 < limit)
    (visible : ∃ c ∈ text.toList, isWhitespace c = false) :
    Chunked text limit (splitMessage text limit positive) := by
  have trimmed : Trimmed isWhitespace (trim text.toList) := trimmed_trim visible
  obtain ⟨spaced, each⟩ := splitLoop_spaced positive trimmed
  obtain ⟨front, starts, blank⟩ := dropWhile_gap isWhitespace text.toList
  obtain ⟨back, ends, also⟩ := rdropWhile_gap isWhitespace (text.toList.dropWhile isWhitespace)
  have split : splitMessage text limit positive =
      (splitLoop limit positive (trim text.toList)).map String.ofList := by
    have some_ : ¬(trim text.toList).isEmpty = true := by simp [trim_isEmpty.2 visible]
    rw [splitMessage]
    exact if_neg some_
  rw [split]
  refine ⟨?_, fun chunk member => ?_, fun chunk member => ?_⟩
  · have whole := (spaced.append also).prepend blank
    have joined : front ++ (trim text.toList ++ back) = text.toList := by
      rw [trim, trimEnd_eq, trimStart, ← ends, ← starts]
    rw [joined] at whole
    rw [List.map_map]
    simpa [Function.comp_def] using whole
  · obtain ⟨letters, there, rfl⟩ := List.mem_map.1 member
    rw [String.toList_ofList]
    exact (each letters there).1
  · obtain ⟨letters, there, rfl⟩ := List.mem_map.1 member
    rw [String.length_ofList]
    exact (each letters there).2

/-! ## Contents of a request -/

/-- The request of a message checks nothing of its content but that it is not blank and fits. -/
def Sendable (content : String) : Prop :=
  ∀ build channel domain logicalKey chunkIndex,
    idempotentMessageRequest build channel content domain logicalKey chunkIndex =
      build channel content domain logicalKey chunkIndex

theorem sendable_iff {content : String} : Sendable content ↔
    (∃ c ∈ content.toList, isWhitespace c = false) ∧ content.length ≤ discordMaxLen := by
  constructor
  · intro sendable
    have sent := sendable (fun _ _ _ _ _ => .ok ()) 0 "" "" 0
    unfold idempotentMessageRequest at sent
    split at sent
    · cases sent
    · next some_ =>
      split at sent
      · cases sent
      · next short =>
        exact ⟨trim_isEmpty.1 (by simpa using some_), Nat.le_of_not_lt short⟩
  · rintro ⟨visible, short⟩ build channel domain logicalKey chunkIndex
    unfold idempotentMessageRequest
    rw [trim_isEmpty.2 visible, if_neg (by decide), if_neg (by omega)]

theorem noOutput_sendable : Sendable "(no output)" :=
  sendable_iff.2 ⟨⟨'(', by decide, by decide⟩, by decide⟩

/-! ## Markers -/

/-- The first line of a chunk, when there is more than one -/
def marker (index total : Nat) : String :=
  "[" ++ toString (index + 1) ++ "/" ++ toString total ++ "]\n"

theorem length_toString_le {n : Nat} (small : n < 10 ^ 13) : (toString n).length ≤ 13 := by
  show n.repr.length ≤ 13
  exact (Nat.length_repr_le_iff (by decide)).2 small

theorem marker_length {index total : Nat} (within : index < total) (count : total < 10 ^ 13) :
    (marker index total).length ≤ chunkMarkerBudget := by
  have first := @length_toString_le (index + 1) (by omega)
  have second := length_toString_le count
  have one : "[".length = 1 := rfl
  have slash : "/".length = 1 := rfl
  have close : "]\n".length = 2 := rfl
  simp only [marker, String.length_append, one, slash, close]
  have budget : chunkMarkerBudget = 32 := rfl
  omega

theorem marked_sendable {index total : Nat} {chunk : String} (within : index < total)
    (count : total < 10 ^ 13) (short : chunk.length ≤ discordMaxLen - chunkMarkerBudget) :
    Sendable (marker index total ++ chunk) := by
  have head := marker_length within count
  have budget : discordMaxLen = 1900 ∧ chunkMarkerBudget = 32 := ⟨rfl, rfl⟩
  refine sendable_iff.2 ⟨⟨'[', ?_, by decide⟩, ?_⟩
  · simp [marker]
  · rw [String.length_append]
    omega

/-- The marker of a delivery chunk is its place and the count of all chunks. -/
theorem splitDeliveryChunks_marked
    (several : 1 < (splitDeliveryChunks text true).length) (index : Nat) :
    (splitDeliveryChunks text true)[index]? =
      (splitMessage text (discordMaxLen - chunkMarkerBudget) (by decide))[index]?.map
        (marker index (splitDeliveryChunks text true).length ++ ·) := by
  unfold splitDeliveryChunks at several ⊢
  simp only [Bool.not_true, Bool.false_eq_true, if_false] at several ⊢
  split at several
  · omega
  · next many =>
    rw [if_neg many, List.getElem?_mapIdx, List.length_mapIdx]
    rfl

/-- One chunk is not marked. -/
theorem splitDeliveryChunks_single (single : (splitDeliveryChunks text true).length ≤ 1) :
    splitDeliveryChunks text true =
      splitMessage text (discordMaxLen - chunkMarkerBudget) (by decide) := by
  unfold splitDeliveryChunks at single ⊢
  simp only [Bool.not_true, Bool.false_eq_true, if_false] at single ⊢
  split at single
  · next few => rw [if_pos few]
  · next many =>
    rw [List.length_mapIdx] at single
    exact absurd single many

/-- Every message of a text can be sent, whatever the limit within that of a request. -/
theorem splitMessage_sendable (positive : 0 < limit)
    (fits : limit ≤ discordMaxLen) : ∀ chunk ∈ splitMessage text limit positive,
      Sendable chunk := by
  intro chunk member
  by_cases visible : ∃ c ∈ text.toList, isWhitespace c = false
  · have chunked := splitMessage_chunked positive visible
    exact sendable_iff.2 ⟨(chunked.trimmed chunk member).visible, (chunked.short chunk member).trans fits⟩
  · rw [splitMessage_blank positive visible] at member
    rw [List.mem_singleton.1 member]
    exact noOutput_sendable

theorem splitMessage_short (positive : 0 < limit)
    (room : 11 ≤ limit) : ∀ chunk ∈ splitMessage text limit positive, chunk.length ≤ limit := by
  intro chunk member
  by_cases visible : ∃ c ∈ text.toList, isWhitespace c = false
  · exact (splitMessage_chunked positive visible).short chunk member
  · rw [splitMessage_blank positive visible] at member
    rw [List.mem_singleton.1 member]
    exact room

theorem splitDeliveryChunks_sendable (count : (splitDeliveryChunks text true).length < 10 ^ 13) :
    ∀ chunk ∈ splitDeliveryChunks text true, Sendable chunk := by
  intro chunk member
  obtain several | single := Nat.lt_or_ge 1 (splitDeliveryChunks text true).length
  · obtain ⟨index, found⟩ := List.mem_iff_getElem?.1 member
    have within := (List.getElem?_eq_some_iff.1 found).1
    rw [splitDeliveryChunks_marked several] at found
    obtain ⟨piece, there, rfl⟩ := Option.map_eq_some_iff.1 found
    exact marked_sendable within count
      (splitMessage_short _ (by decide) piece (List.mem_of_getElem? there))
  · rw [splitDeliveryChunks_single single] at member
    exact splitMessage_sendable _ (by decide) chunk member

/-- Splitting a text loses nothing but whitespace, and every chunk of a delivery can be sent. -/
theorem split_loses_whitespace_only :
    (∀ text limit (positive : 0 < limit), (∃ c ∈ text.toList, isWhitespace c = false) →
      Chunked text limit (splitMessage text limit positive) ∧
        text.toList.filter (fun c => !isWhitespace c) =
          ((splitMessage text limit positive).flatMap String.toList).filter
            fun c => !isWhitespace c) ∧
      (∀ text, ∀ chunk ∈ splitDeliveryChunks text false, Sendable chunk) ∧
      ∀ text, (splitDeliveryChunks text true).length < 10 ^ 13 →
        (∀ chunk ∈ splitDeliveryChunks text true, Sendable chunk) ∧
          (1 < (splitDeliveryChunks text true).length → ∀ index,
            (splitDeliveryChunks text true)[index]? =
              (splitMessage text (discordMaxLen - chunkMarkerBudget) (by decide))[index]?.map
                (marker index (splitDeliveryChunks text true).length ++ ·)) := by
  refine ⟨fun text limit positive visible => ?_, fun text chunk member => ?_, fun text count => ?_⟩
  · have chunked := splitMessage_chunked positive visible
    refine ⟨chunked, ?_⟩
    rw [chunked.spaced.filter, List.flatMap_def]
  · exact splitMessage_sendable _ (Nat.le_refl _) chunk member
  · exact ⟨splitDeliveryChunks_sendable count, fun several => splitDeliveryChunks_marked several⟩

/-- A text within the limit is one chunk. -/
theorem splitMessage_whole {text : String} {limit : Nat} (positive : 0 < limit)
    (visible : ∃ c ∈ text.toList, isWhitespace c = false)
    (fits : (trim text.toList).length ≤ limit) :
    splitMessage text limit positive = [String.ofList (trim text.toList)] := by
  have some_ : ¬(trim text.toList).isEmpty = true := by simp [trim_isEmpty.2 visible]
  rw [splitMessage, splitLoop]
  simp only [if_neg some_, dif_neg (Nat.not_lt.2 fits)]
  rfl

theorem split_two_words :
    Chunked " ab\n cd " 4 (splitMessage " ab\n cd " 4 (by decide)) ∧
      ∀ chunk ∈ splitDeliveryChunks " ab\n cd " true, Sendable chunk := by
  have visible : ∃ c ∈ " ab\n cd ".toList, isWhitespace c = false := ⟨'a', by decide, by decide⟩
  have single := @splitMessage_whole _ (discordMaxLen - chunkMarkerBudget) (by decide) visible
    (by decide)
  have count : (splitDeliveryChunks " ab\n cd " true).length < 10 ^ 13 := by
    simp [splitDeliveryChunks, single]
  exact ⟨(split_loses_whitespace_only.1 " ab\n cd " 4 (by decide) visible).1,
    (split_loses_whitespace_only.2.2 " ab\n cd " count).1⟩

/-! ## Exact chunks -/

theorem exactLoop_flatten (positive : 0 < limit) (text : List Char) :
    (exactLoop limit positive text).flatten = text := by
  induction text using exactLoop.induct limit positive with
  | case1 text none_ =>
    rw [exactLoop, dif_pos none_]
    exact (List.isEmpty_iff.1 none_).symm
  | case2 text some_ ih =>
    rw [exactLoop, dif_neg some_, List.flatten_cons, ih, List.take_append_drop]

/-- The chunk at an index is the block of the text there. -/
theorem exactLoop_block (positive : 0 < limit) (text : List Char) (index : Nat) :
    (exactLoop limit positive text)[index]? =
      if index * limit < text.length then some ((text.drop (index * limit)).take limit) else none := by
  induction text using exactLoop.induct limit positive generalizing index with
  | case1 text none_ =>
    rw [exactLoop, dif_pos none_, List.isEmpty_iff.1 none_]
    rfl
  | case2 text some_ ih =>
    have filled : 0 < text.length := List.length_pos_iff.2 (by simpa using some_)
    rw [exactLoop, dif_neg some_]
    cases index with
    | zero => simp [filled]
    | succ index =>
      rw [List.getElem?_cons_succ, ih, List.length_drop, List.drop_drop]
      have later : index * limit < text.length - limit ↔ (index + 1) * limit < text.length := by
        rw [Nat.add_mul, Nat.one_mul]
        omega
      have offset : limit + index * limit = (index + 1) * limit := by
        rw [Nat.add_mul, Nat.one_mul, Nat.add_comm]
      simp only [later, offset]

theorem exactLoop_several (positive : 0 < limit) (text : List Char) :
    1 < (exactLoop limit positive text).length ↔ limit < text.length := by
  have second := exactLoop_block positive text 1
  rw [Nat.one_mul] at second
  constructor
  · intro several
    by_contra short
    rw [if_neg short, List.getElem?_eq_none_iff] at second
    omega
  · intro long
    rw [if_pos long] at second
    exact (List.getElem?_eq_some_iff.1 second).1

theorem exactLoop_short (positive : 0 < limit) (text : List Char) :
    ∀ piece ∈ exactLoop limit positive text, piece.length ≤ limit := by
  intro piece member
  obtain ⟨index, found⟩ := List.mem_iff_getElem?.1 member
  rw [exactLoop_block] at found
  split at found
  · cases found
    exact List.length_take_le ..
  · cases found

/-- The text after the marker line of a chunk -/
def unmarked (index total : Nat) (chunk : String) : List Char :=
  if (marker index total).toList.isPrefixOf chunk.toList then
    chunk.toList.drop (marker index total).length
  else chunk.toList

theorem unmarked_marker (index total : Nat) (chunk : String) :
    unmarked index total (marker index total ++ chunk) = chunk.toList := by
  have starts : (marker index total).toList.isPrefixOf (marker index total ++ chunk).toList = true := by
    rw [String.toList_append, List.isPrefixOf_iff_prefix]
    exact List.prefix_append ..
  rw [unmarked, if_pos starts, String.toList_append, ← String.length_toList, List.drop_left]

/-- What the chunks of a text say, their marker lines removed when there is more than one -/
def readBack (markersEnabled : Bool) (chunks : List String) : List Char :=
  if markersEnabled && 1 < chunks.length then
    (chunks.mapIdx fun index chunk => unmarked index chunks.length chunk).flatten
  else chunks.flatMap String.toList

/-- The text is carried exactly, by messages that fit and that a request accepts. -/
structure Delivers (text : String) (markersEnabled : Bool) : Prop where
  exact : readBack markersEnabled (splitExactDeliveryChunks text markersEnabled) = text.toList
  short : ∀ chunk ∈ splitExactDeliveryChunks text markersEnabled, chunk.length ≤ discordMaxLen
  sendable : ∀ chunk ∈ splitExactDeliveryChunks text markersEnabled, Sendable chunk

section Exact

variable {text : String} {markersEnabled : Bool}

/-- The blocks of a text, before any marker -/
def pieces (text : String) (markersEnabled : Bool) : List String :=
  (exactLoop (exactLimit markersEnabled) (exactLimit_pos markersEnabled) text.toList).map
    String.ofList

theorem pieces_flatMap : (pieces text markersEnabled).flatMap String.toList = text.toList := by
  rw [pieces, List.flatMap_map]
  simp only [String.toList_ofList]
  rw [List.flatMap_id', exactLoop_flatten]

theorem pieces_short : ∀ piece ∈ pieces text markersEnabled,
    piece.length ≤ exactLimit markersEnabled := by
  intro piece member
  obtain ⟨letters, there, rfl⟩ := List.mem_map.1 member
  rw [String.length_ofList]
  exact exactLoop_short _ _ letters there

/-- Markers are written when they are enabled and there is more than one block. -/
theorem splitExact_eq (some_ : text ≠ "") : splitExactDeliveryChunks text markersEnabled =
    if markersEnabled && 1 < (pieces text markersEnabled).length then
      (pieces text markersEnabled).mapIdx fun index chunk =>
        marker index (pieces text markersEnabled).length ++ chunk
    else pieces text markersEnabled := by
  rw [splitExactDeliveryChunks, if_neg (by simpa using some_)]
  rfl

theorem splitExact_length (some_ : text ≠ "") :
    (splitExactDeliveryChunks text markersEnabled).length = (pieces text markersEnabled).length := by
  rw [splitExact_eq some_]
  split
  · exact List.length_mapIdx
  · rfl

theorem splitExact_exact (some_ : text ≠ "") :
    readBack markersEnabled (splitExactDeliveryChunks text markersEnabled) = text.toList := by
  rw [readBack, splitExact_length some_, splitExact_eq some_]
  split
  · next marked =>
    rw [List.mapIdx_mapIdx, ← @pieces_flatMap text markersEnabled,
      List.flatMap_def]
    refine congrArg List.flatten (List.ext_getElem? fun index => ?_)
    rw [List.getElem?_mapIdx, List.getElem?_map]
    congr 1
    funext piece
    exact unmarked_marker index _ piece
  · exact pieces_flatMap

theorem splitExact_short (some_ : text ≠ "")
    (count : (splitExactDeliveryChunks text markersEnabled).length < 10 ^ 13) :
    ∀ chunk ∈ splitExactDeliveryChunks text markersEnabled, chunk.length ≤ discordMaxLen := by
  intro chunk member
  rw [splitExact_length some_] at count
  rw [splitExact_eq some_] at member
  split at member
  · next marked =>
    obtain ⟨index, found⟩ := List.mem_iff_getElem?.1 member
    rw [List.getElem?_mapIdx] at found
    obtain ⟨piece, there, rfl⟩ := Option.map_eq_some_iff.1 found
    have within := (List.getElem?_eq_some_iff.1 there).1
    have head := marker_length within count
    have body := pieces_short piece (List.mem_of_getElem? there)
    simp only [Bool.and_eq_true] at marked
    rw [marked.1] at body
    have limit : exactLimit true = 1868 := rfl
    have most : discordMaxLen = 1900 ∧ chunkMarkerBudget = 32 := ⟨rfl, rfl⟩
    rw [String.length_append]
    omega
  · exact (pieces_short chunk member).trans (Nat.sub_le _ _)

/-- Either markers make every chunk visible, or every block of the text is visible by itself. -/
def VisibleBlocks (text : String) (markersEnabled : Bool) : Prop :=
  (markersEnabled = true ∧ exactLimit true < text.length) ∨
    ∀ k, k * exactLimit markersEnabled < text.length →
      ∃ c ∈ (text.toList.drop (k * exactLimit markersEnabled)).take (exactLimit markersEnabled),
        isWhitespace c = false

theorem pieces_several : 1 < (pieces text markersEnabled).length ↔
    exactLimit markersEnabled < text.length := by
  rw [pieces, List.length_map, exactLoop_several, String.length_toList]

/-- A chunk without a marker is a block of the text. -/
theorem mem_pieces {piece : String} : piece ∈ pieces text markersEnabled ↔
    ∃ k, k * exactLimit markersEnabled < text.length ∧ piece = String.ofList
      ((text.toList.drop (k * exactLimit markersEnabled)).take (exactLimit markersEnabled)) := by
  rw [pieces, List.mem_map]
  constructor
  · rintro ⟨letters, there, rfl⟩
    obtain ⟨k, found⟩ := List.mem_iff_getElem?.1 there
    rw [exactLoop_block, String.length_toList] at found
    split at found
    · next within =>
      cases found
      exact ⟨k, within, rfl⟩
    · cases found
  · rintro ⟨k, within, rfl⟩
    refine ⟨_, List.mem_iff_getElem?.2 ⟨k, ?_⟩, rfl⟩
    rw [exactLoop_block, String.length_toList, if_pos within]

theorem splitExact_sendable (some_ : text ≠ "")
    (count : (splitExactDeliveryChunks text markersEnabled).length < 10 ^ 13) :
    (∀ chunk ∈ splitExactDeliveryChunks text markersEnabled, Sendable chunk) ↔
      VisibleBlocks text markersEnabled := by
  have short := splitExact_short some_ count
  rw [splitExact_length some_] at count
  rw [splitExact_eq some_] at short ⊢
  split
  · next marked =>
    simp only [Bool.and_eq_true, decide_eq_true_eq] at marked
    obtain ⟨rfl, several⟩ := marked
    refine iff_of_true (fun chunk member => ?_) (Or.inl ⟨rfl, pieces_several.1 several⟩)
    obtain ⟨index, found⟩ := List.mem_iff_getElem?.1 member
    rw [List.getElem?_mapIdx] at found
    obtain ⟨piece, there, rfl⟩ := Option.map_eq_some_iff.1 found
    exact marked_sendable (List.getElem?_eq_some_iff.1 there).1 count
      (pieces_short piece (List.mem_of_getElem? there))
  · next unmarked_ =>
    rw [if_neg unmarked_] at short
    constructor
    · intro sendable
      refine Or.inr fun k within => ?_
      obtain ⟨visible, _⟩ := sendable_iff.1 (sendable _ (mem_pieces.2 ⟨k, within, rfl⟩))
      rwa [String.toList_ofList] at visible
    · intro visible chunk member
      refine sendable_iff.2 ⟨?_, short chunk member⟩
      obtain ⟨rfl, long⟩ | blocks := visible
      · exact absurd (by simp [pieces_several.2 long]) unmarked_
      · obtain ⟨k, within, rfl⟩ := mem_pieces.1 member
        rw [String.toList_ofList]
        exact blocks k within

/-- A non-empty text is delivered exactly when none of its chunks is blank. -/
theorem exact_chunks_deliver (some_ : text ≠ "")
    (count : (splitExactDeliveryChunks text markersEnabled).length < 10 ^ 13) :
    Delivers text markersEnabled ↔ VisibleBlocks text markersEnabled :=
  ⟨fun delivers => (splitExact_sendable some_ count).1 delivers.sendable, fun visible =>
    ⟨splitExact_exact some_, splitExact_short some_ count,
      (splitExact_sendable some_ count).2 visible⟩⟩

end Exact

/-- A text that fits one chunk is split into itself. -/
theorem splitExact_whole {text : String} (some_ : text ≠ "") (markersEnabled : Bool)
    (fits : text.length ≤ exactLimit markersEnabled) :
    splitExactDeliveryChunks text markersEnabled = [text] := by
  have single : pieces text markersEnabled = [text] := by
    have filled : text.toList.isEmpty = false := by
      rw [List.isEmpty_eq_false_iff]
      exact fun none_ => some_ (String.toList_eq_nil_iff.1 none_)
    rw [pieces, exactLoop, dif_neg (by simp [filled]), exactLoop, dif_pos]
    · rw [List.take_of_length_le (by rwa [String.length_toList])]
      simp
    · rw [List.isEmpty_iff, List.drop_eq_nil_iff, String.length_toList]
      exact fits
  rw [splitExact_eq some_, single]
  simp

/-- One blank is split into one blank chunk, which no request accepts. -/
theorem blank_not_delivered :
    (splitExactDeliveryChunks " " true).length < 10 ^ 13 ∧ ¬Delivers " " true := by
  have single := @splitExact_whole " " (by decide) true (by decide)
  refine ⟨by rw [single]; decide, fun delivers => ?_⟩
  obtain ⟨⟨c, member, filled⟩, _⟩ :=
    sendable_iff.1 (delivers.sendable " " (by rw [single]; exact List.mem_singleton_self _))
  have blank : c = ' ' := by simpa using member
  rw [blank] at filled
  exact absurd filled (by decide)

theorem indented_delivered : Delivers " x" false := by
  have single := @splitExact_whole " x" (by decide) false (by decide)
  refine (exact_chunks_deliver (by decide) (by rw [single]; decide)).2 (Or.inr fun k within => ?_)
  obtain rfl : k = 0 := by
    have limit : exactLimit false = 1900 := rfl
    have two : " x".length = 2 := rfl
    rw [limit, two] at within
    omega
  exact ⟨'x', by decide, by decide⟩

end CodexRemote.Verified.MessageChunks

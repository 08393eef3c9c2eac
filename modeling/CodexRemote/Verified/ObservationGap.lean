import CodexRemote.Foundations.Runs
import CodexRemote.Store.ObservationGap

/-! # What the observation ledger says was checked

The gaps of a stream tile its sequences, the spans of a gap are the sequences certified in it, and
a scope counts as verified only when every sequence was.
-/

namespace CodexRemote.Verified.ObservationGap

open Foundations Store Store.ObservationGap

/-! ## Steps -/

inductive LedgerEvent where
  | activated (scope : Scope) (answer : Except StoreError Unit)
  | discovered (scope : Scope) (upper : Int) (answer : Except StoreError Unit)
  | marked (scope : Scope) (answer : Except StoreError Unit)
  | scanned (scope : Scope) (answer : Except StoreError (Option Gap))
  | certified (scope : Scope) (sequence : Int) (effects : List Effect) (evidence : Evidence)
      (answer : Except StoreError Bool)
  | paged (gap : Gap) (through : Int) (answer : Except StoreError Bool)
  | faulted

/-- One call, with any arguments; the other tables are whatever they are at that moment. -/
inductive LedgerStep : Ledger → LedgerEvent → Ledger → Prop where
  | activated {s t answer} (scope) (call : activate scope s = (answer, t)) :
      LedgerStep s (.activated scope answer) t
  | discovered {s t answer} (scope upper) (call : discover scope upper s = (answer, t)) :
      LedgerStep s (.discovered scope upper answer) t
  | marked {s t answer} (scope detail) (call : markUnknown scope detail s = (answer, t)) :
      LedgerStep s (.marked scope answer) t
  | scanned {s t answer} (scope) (call : next scope s = (answer, t)) :
      LedgerStep s (.scanned scope answer) t
  | certified {s t answer} (scope sequence effects evidence)
      (call : certify scope sequence effects evidence s = (answer, t)) :
      LedgerStep s (.certified scope sequence effects evidence answer) t
  | paged {s t answer} (gap through) (call : finishPage gap through s = (answer, t)) :
      LedgerStep s (.paged gap through answer) t
  | faulted {s} : LedgerStep s .faulted s

/-! ## Sound ledgers -/

/-- A gap of which nothing is known but that it is there -/
structure Unknown (row : GapRow) : Prop where
  state : row.state = .unresolved
  first : row.gap.first = 0
  last : row.gap.last = 0
  cursor : row.gap.cursor = 0
  verified : row.gap.verified = []

/-- A range of sequences, with the spans that are certified -/
structure Recorded (row : GapRow) : Prop where
  positive : 0 < row.gap.first
  valid : row.gap.first ≤ row.gap.last
  bounded : row.gap.last < i64Max
  normal : Span.Normal row.gap.verified
  inside : ∀ span ∈ row.gap.verified, row.gap.first ≤ span.first ∧ span.last ≤ row.gap.last
  state : row.state = if row.gap.complete then .verified else .opened

/-- The gaps that hold sequences of the scope -/
def owns (scope : Scope) (row : GapRow) : Bool := row.gap.scope = scope && 0 < row.gap.first

def ranges (rows : List GapRow) (scope : Scope) : List Span :=
  (rows.filter (owns scope)).map (·.gap.range)

structure Sound (ledger : Ledger) : Prop where
  gaps : ∀ row ∈ ledger.gaps.rows, Unknown row ∨ Recorded row
  seen : ∀ stream ∈ ledger.streams.rows, 0 ≤ stream.seenSeq ∧ stream.seenSeq < i64Max
  tiled : ∀ stream ∈ ledger.streams.rows,
    Span.Tiled 1 stream.seenSeq (ranges ledger.gaps.rows stream.scope)
  owned : ∀ row ∈ ledger.gaps.rows, 0 < row.gap.first →
    (ledger.streams.find row.gap.scope).isSome

variable {row : GapRow} {ledger s t : Ledger} {f : GapRow → GapRow} {fresh : Scope → Int → Prop}
  {scope : Scope} {events : List LedgerEvent}

theorem Recorded.complete_iff (recorded : Recorded row) :
    row.gap.complete = true ↔ ∀ x, row.gap.range.Holds x → Span.Covers row.gap.verified x := by
  rw [Gap.complete, decide_eq_true_iff]
  exact recorded.normal.interval recorded.valid recorded.inside

/-- A gap is marked as verified exactly when its spans cover it. -/
theorem Sound.verified_iff (sound : Sound ledger)
    (there : row ∈ ledger.gaps.rows) : row.state = .verified ↔
      ∀ x, row.gap.range.Holds x → Span.Covers row.gap.verified x := by
  obtain unknown | recorded := sound.gaps row there
  · rw [unknown.state, unknown.verified]
    refine ⟨nofun, fun all => absurd (all 0 ?_) (Span.not_covers_nil 0)⟩
    exact ⟨Int.le_of_eq unknown.first, Int.le_of_eq unknown.last.symm⟩
  · rw [← recorded.complete_iff, recorded.state]
    cases row.gap.complete <;> decide

theorem Sound.normal (sound : Sound ledger)
    (there : row ∈ ledger.gaps.rows) : Span.Normal row.gap.verified := by
  obtain unknown | recorded := sound.gaps row there
  · rw [unknown.verified]
    exact .nil
  · exact recorded.normal

/-! ## Appended gaps -/

theorem append_rows (ledger : Ledger) (row : GapRow) : (ledger.append row).gaps.rows =
    ledger.gaps.rows ++ [{ row with gap := { row.gap with id := ledger.lastGap + 1 } }] := by
  have free : ledger.lastGap + 1 ∉ ledger.gaps.rows.map GapRow.id := by
    intro taken
    obtain ⟨old, there, same⟩ := List.mem_map.1 taken
    have bound := ledger.bounded old there
    omega
  exact congrArg Table.rows (dif_neg free)

/-- Only gaps of which nothing is known were added. -/
def Extended (s t : Ledger) : Prop :=
  t.streams = s.streams ∧ ∃ extra, t.gaps.rows = s.gaps.rows ++ extra ∧ ∀ row ∈ extra, Unknown row

theorem Extended.refl (s : Ledger) : Extended s s :=
  ⟨rfl, [], by simp, List.forall_mem_nil _⟩

theorem Extended.trans {u : Ledger} (left : Extended s t) (right : Extended t u) :
    Extended s u := by
  obtain ⟨streams, extra, rows, unknown⟩ := left
  obtain ⟨streams_, more, rows_, unknown_⟩ := right
  refine ⟨streams_.trans streams, extra ++ more, by rw [rows_, rows, List.append_assoc], ?_⟩
  intro row there
  obtain old | new := List.mem_append.1 there
  · exact unknown row old
  · exact unknown_ row new

theorem insertUnknown_extended (detail : String) (ledger : Ledger) (scope : Scope) :
    Extended ledger (insertUnknown detail ledger scope) := by
  rw [insertUnknown]
  split
  · exact .refl ledger
  · refine ⟨rfl, _, append_rows .., fun row there => ?_⟩
    rw [List.mem_singleton.1 there]
    exact ⟨rfl, rfl, rfl, rfl, rfl⟩

theorem foldl_extended (detail : String) (scopes : List Scope) (ledger : Ledger) :
    Extended ledger (scopes.foldl (insertUnknown detail) ledger) := by
  induction scopes generalizing ledger with
  | nil => exact .refl ledger
  | cons scope scopes ih => exact (insertUnknown_extended detail ledger scope).trans (ih _)

theorem ranges_append (rows extra : List GapRow) (scope : Scope) :
    ranges (rows ++ extra) scope = ranges rows scope ++ ranges extra scope := by
  rw [ranges, List.filter_append, List.map_append, ← ranges, ← ranges]

theorem ranges_unknown {extra : List GapRow} (unknown : ∀ row ∈ extra, Unknown row) (scope : Scope) :
    ranges extra scope = [] := by
  rw [ranges, List.map_eq_nil_iff, List.filter_eq_nil_iff]
  intro row there
  simp [owns, (unknown row there).first]

/-! ## Revised gaps -/

/-- A gap before and after an update: its range stays, its spans grow by fresh sequences only. -/
structure Revised (fresh : Scope → Int → Prop) (old new : GapRow) : Prop where
  id : new.id = old.id
  scope : new.gap.scope = old.gap.scope
  range : new.gap.range = old.gap.range
  unknown : Unknown old → Unknown new
  recorded : Recorded old → Recorded new
  grows : ∀ x, Span.Covers old.gap.verified x → Span.Covers new.gap.verified x
  only : ∀ x, Span.Covers new.gap.verified x →
    Span.Covers old.gap.verified x ∨ fresh old.gap.scope x

theorem Revised.refl (fresh : Scope → Int → Prop) (row : GapRow) : Revised fresh row row :=
  ⟨rfl, rfl, rfl, fun same => same, fun same => same, fun _ same => same, fun _ => .inl⟩

/-- The gaps after a step: the old ones revised, and new ones in which nothing is certified. -/
structure Rewritten (fresh : Scope → Int → Prop) (s t : Ledger) (f : GapRow → GapRow)
    (extra : List GapRow) : Prop where
  rows : t.gaps.rows = s.gaps.rows.map f ++ extra
  revised : ∀ row ∈ s.gaps.rows, Revised fresh row (f row)
  empty : ∀ row ∈ extra, row.gap.verified = []

/-- The streams after a step -/
structure Streams (s t : Ledger) : Prop where
  kept : ∀ stream ∈ s.streams.rows, ∃ new ∈ t.streams.rows, new.scope = stream.scope ∧
    new.isUnsealed = stream.isUnsealed ∧ stream.seenSeq ≤ new.seenSeq ∧
    (new.active = true → stream.active = true)

/-- The streams of a step that sees no new sequence -/
structure Unseen (s t : Ledger) : Prop extends Streams s t where
  seen : ∀ stream ∈ t.streams.rows,
    (∃ old ∈ s.streams.rows, old.scope = stream.scope ∧ old.seenSeq = stream.seenSeq) ∨
      (s.streams.find stream.scope = none ∧ stream.seenSeq = 0)

theorem Unseen.of_eq (same : t.streams = s.streams) : Unseen s t where
  kept stream there := ⟨stream, same ▸ there, rfl, rfl, le_refl _, id⟩
  seen stream there := .inl ⟨stream, same ▸ there, rfl, rfl⟩

theorem ranges_revised {rows : List GapRow}
    (revised : ∀ row ∈ rows, Revised fresh row (f row)) (scope : Scope) :
    ranges (rows.map f) scope = ranges rows scope := by
  induction rows with
  | nil => rfl
  | cons row rows ih =>
    have own := revised row (List.mem_cons_self ..)
    have first : (f row).gap.first = row.gap.first := congrArg Span.first own.range
    have owned : owns scope (f row) = owns scope row := by rw [owns, owns, own.scope, first]
    have rest := ih fun row there => revised row (List.mem_cons_of_mem _ there)
    simp only [ranges] at rest
    simp only [ranges, List.map_cons, List.filter_cons, owned]
    cases owns scope row with
    | false => exact rest
    | true => exact congrArg₂ List.cons own.range rest

theorem find_isSome_of_kept (streams : Streams s t)
    (there : (s.streams.find scope).isSome) : (t.streams.find scope).isSome := by
  obtain ⟨stream, found⟩ := Option.isSome_iff_exists.1 there
  obtain ⟨new, member, same, _⟩ := streams.kept stream (Table.mem_of_find found)
  have known := Table.find_of_mem member
  rw [same, Table.find_key found] at known
  rw [known]
  rfl

/-- Where no new sequence is seen, a sound ledger stays sound. -/
theorem Sound.unseen
    {extra : List GapRow} (sound : Sound s) (rewritten : Rewritten fresh s t f extra)
    (unknown : ∀ row ∈ extra, Unknown row) (streams : Unseen s t) : Sound t := by
  have ranges_same : ∀ scope, ranges t.gaps.rows scope = ranges s.gaps.rows scope := by
    intro scope
    rw [rewritten.rows, ranges_append, ranges_revised rewritten.revised, ranges_unknown unknown,
      List.append_nil]
  refine ⟨?_, ?_, ?_, ?_⟩
  · intro row there
    rw [rewritten.rows] at there
    obtain old | new := List.mem_append.1 there
    · obtain ⟨before, member, rfl⟩ := List.mem_map.1 old
      have own := rewritten.revised before member
      exact (sound.gaps before member).imp own.unknown own.recorded
    · exact .inl (unknown row new)
  · intro stream there
    obtain ⟨old, member, _, same⟩ | ⟨_, zero⟩ := streams.seen stream there
    · rw [← same]
      exact sound.seen old member
    · rw [zero]
      decide
  · intro stream there
    rw [ranges_same]
    obtain ⟨old, member, scope, same⟩ | ⟨missing, zero⟩ := streams.seen stream there
    · rw [← scope, ← same]
      exact sound.tiled old member
    · have none_ : ranges s.gaps.rows stream.scope = [] := by
        rw [ranges, List.map_eq_nil_iff, List.filter_eq_nil_iff]
        intro row member owned
        simp only [owns, Bool.and_eq_true, decide_eq_true_eq] at owned
        have known := sound.owned row member owned.2
        rw [owned.1, missing] at known
        cases known
      rw [none_, zero]
      rfl
  · intro row there positive
    rw [rewritten.rows] at there
    obtain old | new := List.mem_append.1 there
    · obtain ⟨before, member, rfl⟩ := List.mem_map.1 old
      have own := rewritten.revised before member
      have first : (f before).gap.first = before.gap.first := congrArg Span.first own.range
      rw [own.scope]
      exact find_isSome_of_kept streams.toStreams (sound.owned before member (first ▸ positive))
    · have zero := (unknown row new).first
      omega

theorem Extended.rewritten (extended : Extended s t) (fresh : Scope → Int → Prop) :
    ∃ extra, Rewritten fresh s t id extra ∧ ∀ row ∈ extra, Unknown row := by
  obtain ⟨_, extra, rows, unknown⟩ := extended
  refine ⟨extra, ⟨by rw [rows, List.map_id], fun row _ => .refl fresh row, ?_⟩, unknown⟩
  exact fun row there => (unknown row there).verified

/-! ## Calls -/

/-- What a step does to a sound ledger. -/
structure StepEffect (fresh : Scope → Int → Prop) (s t : Ledger) : Prop where
  rewritten : ∃ f extra, Rewritten fresh s t f extra
  streams : Streams s t
  sound : Sound t

theorem StepEffect.refl (sound : Sound s) :
    StepEffect fresh s s where
  rewritten := ⟨id, [], by simp, fun row _ => .refl fresh row, List.forall_mem_nil _⟩
  streams := (Unseen.of_eq rfl).toStreams
  sound := sound

theorem StepEffect.unchanged (same : t = s) (sound : Sound s) : StepEffect fresh s t := by
  rw [same]
  exact .refl sound

theorem StepEffect.unseen
    {extra : List GapRow} (sound : Sound s) (rewritten : Rewritten fresh s t f extra)
    (unknown : ∀ row ∈ extra, Unknown row) (streams : Unseen s t) : StepEffect fresh s t :=
  ⟨⟨f, extra, rewritten⟩, streams.toStreams, sound.unseen rewritten unknown streams⟩

/-- A step that revises gaps and adds none -/
theorem StepEffect.revised (sound : Sound s) (rows : t.gaps.rows = s.gaps.rows.map f)
    (revised : ∀ row ∈ s.gaps.rows, Revised fresh row (f row)) (streams : Unseen s t) :
    StepEffect fresh s t := by
  have rewritten : Rewritten fresh s t f [] :=
    ⟨by rw [rows, List.append_nil], revised, List.forall_mem_nil _⟩
  exact .unseen sound rewritten (List.forall_mem_nil _) streams

theorem activateNew_effect (sound : Sound s) (missing : s.streams.find scope = none)
    (result : activateNew scope s = .ok t) : StepEffect fresh s t := by
  rw [activateNew] at result
  obtain ⟨_, result⟩ := guard_ok.1 result
  have extended := foldl_extended previousTail (othersUnsealed s scope) s
  generalize (othersUnsealed s scope).foldl (insertUnknown previousTail) s = held at extended result
  obtain ⟨_, result⟩ := guard_ok.1 result
  cases result
  obtain ⟨extra, rewritten, unknown⟩ := extended.rewritten fresh
  have same := extended.1
  refine .unseen sound ⟨rewritten.rows, rewritten.revised, rewritten.empty⟩ unknown ⟨⟨?_⟩, ?_⟩
  · intro stream there
    have other : stream.scope ≠ scope := Table.find_none_iff.1 missing stream there
    refine ⟨{ stream with active := false }, ?_, rfl, rfl, le_refl _, nofun⟩
    refine Table.mem_put.2 (.inl ⟨?_, other⟩)
    exact List.mem_map.2 ⟨stream, same ▸ there, if_pos (decide_eq_true other)⟩
  · intro stream there
    obtain ⟨updated, _⟩ | rfl := Table.mem_put.1 there
    · obtain ⟨old, member, rfl⟩ := List.mem_map.1 updated
      refine .inl ⟨old, same ▸ member, ?_⟩
      split <;> exact ⟨rfl, rfl⟩
    · exact .inr ⟨missing, rfl⟩

theorem activate_effect {done : Unit}
    (sound : Sound s) (result : activateBody scope s = .ok (done, t)) : StepEffect fresh s t := by
  rw [activateBody] at result
  obtain ⟨_, result⟩ := guard_ok.1 result
  split at result
  · obtain ⟨_, result⟩ := guard_ok.1 result
    cases result
    exact .refl sound
  · next missing =>
    obtain ⟨next, made, same⟩ := map_ok.1 result
    cases same
    exact activateNew_effect sound missing made

theorem markUnknown_effect {detail : String} {done : Unit} (sound : Sound s)
    (result : markUnknownBody scope detail s = .ok (done, t)) : StepEffect fresh s t := by
  simp only [markUnknownBody] at result
  obtain ⟨_, result⟩ := guard_ok.1 result
  cases result
  have extended := insertUnknown_extended (String.ofList (detail.toList.take 512)) s scope
  obtain ⟨extra, rewritten, unknown⟩ := extended.rewritten fresh
  exact .unseen sound rewritten unknown (.of_eq extended.1)

/-- An update of a stream that leaves what was seen alone -/
theorem Unseen.update (s : Ledger) (scope : Scope) (assign : Stream → Stream)
    (keeps : ∀ stream, (assign stream).scope = stream.scope)
    (same : ∀ stream, (assign stream).isUnsealed = stream.isUnsealed ∧
      (assign stream).seenSeq = stream.seenSeq ∧ (assign stream).active = stream.active) :
    Unseen s (s.updateStream scope assign keeps) where
  kept stream there := by
    refine ⟨_, List.mem_map.2 ⟨stream, there, rfl⟩, ?_⟩
    obtain ⟨unsealed_, seen, active⟩ := same stream
    split
    · exact ⟨keeps stream, unsealed_, Int.le_of_eq seen.symm, fun on => active ▸ on⟩
    · exact ⟨rfl, rfl, le_refl _, id⟩
  seen stream there := by
    obtain ⟨old, member, rfl⟩ := List.mem_map.1 there
    refine .inl ⟨old, member, ?_⟩
    split
    · exact ⟨(keeps old).symm, (same old).2.1.symm⟩
    · exact ⟨rfl, rfl⟩

theorem Unseen.trans_eq {u : Ledger} (unseen : Unseen s t) (same : u.streams = t.streams) :
    Unseen s u := by
  refine ⟨⟨?_⟩, ?_⟩
  · rw [same]
    exact unseen.kept
  · rw [same]
    exact unseen.seen

theorem restarted_revised (fresh : Scope → Int → Prop) (row : GapRow)
    (opened : row.state = .opened) : Revised fresh row row.restarted where
  id := rfl
  scope := rfl
  range := rfl
  unknown known := by
    have state := known.state
    rw [opened] at state
    cases state
  recorded recorded := ⟨recorded.positive, recorded.valid, recorded.bounded, recorded.normal,
    recorded.inside, recorded.state⟩
  grows _ covered := covered
  only _ := .inl

theorem nextOpen_mem {after upper : Int} (found : nextOpen ledger scope after upper = some row) :
    row ∈ ledger.gaps.rows ∧ row.state = .opened := by
  have there := List.mem_mergeSort.1 (List.mem_of_mem_head? found)
  obtain ⟨member, selected⟩ := List.mem_filter.1 there
  simp only [Bool.and_eq_true, decide_eq_true_eq] at selected
  exact ⟨member, selected.1.1.1.2⟩

theorem scan_mem {ledger : Ledger} {scope : Scope} {after upper : Int} {row : GapRow}
    (found : (scan ledger scope after upper).1 = some row) :
    row ∈ ledger.gaps.rows ∧ row.state = .opened := by
  rw [scan] at found
  split at found
  · next first =>
    cases found
    exact nextOpen_mem first
  · split at found
    · next second =>
      cases found
      exact nextOpen_mem second
    · cases found

theorem next_effect {answer : Option Gap}
    (sound : Sound s) (result : nextBody scope s = .ok (answer, t)) : StepEffect fresh s t := by
  rw [nextBody] at result
  obtain ⟨_, result⟩ | ⟨_, result⟩ := ite_ok.1 result
  · cases result
    exact .refl sound
  · split at result
    · cases result
    · next stream found =>
      have scanned := @scan_mem s scope stream.scanAfter stream.cycleUpper
      generalize scan s scope stream.scanAfter stream.cycleUpper = place at scanned result
      obtain ⟨found, after, upper⟩ := place
      have unseen := Unseen.update s scope
        (fun stream => { stream with scanAfter := after, cycleUpper := upper }) (fun _ => rfl)
        fun _ => ⟨rfl, rfl, rfl⟩
      have still : StepEffect fresh s (s.updateStream scope
          (fun stream => { stream with scanAfter := after, cycleUpper := upper }) fun _ => rfl) :=
        .revised sound (List.map_id _).symm (fun row _ => .refl fresh row) unseen
      simp only at result
      split at result
      · cases result
        exact still
      · next row =>
        obtain ⟨_, result⟩ | ⟨_, result⟩ := ite_ok.1 result
        · cases result
          obtain ⟨there, opened⟩ := scanned rfl
          refine .revised sound rfl ?_ (unseen.trans_eq rfl)
          intro old member
          split
          · next same =>
            have own := Table.eq_of_key member there (of_decide_eq_true same)
            rw [own]
            exact restarted_revised fresh row opened
          · exact .refl fresh old
        · cases result
          exact still

theorem active_stream {stream : Stream}
    (active : ledger.active scope = true) (found : ledger.streams.find scope = some stream) :
    stream.active = true := by
  obtain ⟨other, there, selected⟩ := List.any_eq_true.1 active
  simp only [Bool.and_eq_true, decide_eq_true_eq] at selected
  have same := Table.eq_of_key there (Table.mem_of_find found)
    (selected.1.trans (Table.find_key found).symm)
  exact same ▸ selected.2

/-- A ledger in which a new range was recorded, from the sequence after the last one seen -/
structure Discovered (scope : Scope) (upper : Int) (stream : Stream) (new : GapRow)
    (s t : Ledger) : Prop where
  found : s.streams.find scope = some stream
  later : stream.seenSeq < upper
  bounded : upper < i64Max
  gaps : t.gaps.rows = s.gaps.rows ++ [new]
  owner : new.gap.scope = scope
  range : new.gap.range = ⟨stream.seenSeq + 1, upper⟩
  empty : new.gap.verified = []
  state : new.state = .opened
  streams : t.streams.rows = s.streams.rows.map fun old =>
    if old.scope = scope then { old with seenSeq := upper } else old

theorem discover_spec {upper : Int} {done : Unit}
    (result : discoverBody scope upper s = .ok (done, t)) :
    t = s ∨ ∃ stream new, Discovered scope upper stream new s t := by
  rw [discoverBody] at result
  obtain ⟨bound, result⟩ := guard_ok.1 result
  obtain ⟨active, result⟩ := guard_ok.1 result
  split at result
  · cases result
  · next stream found =>
    obtain ⟨_, result⟩ | ⟨later, result⟩ := ite_ok.1 result
    · cases result
      exact .inl rfl
    · obtain ⟨_, result⟩ := guard_ok.1 result
      obtain ⟨_, result⟩ := guard_ok.1 result
      cases result
      have on := active_stream (by simpa using active) found
      refine .inr ⟨stream, _, found, by omega, ?_, append_rows .., rfl, rfl, rfl, rfl, ?_⟩
      · simp only [Bool.not_eq_true', Bool.and_eq_false_iff, decide_eq_false_iff_not,
          not_or, Decidable.not_not] at bound
        exact bound.2
      · refine List.map_congr_left fun old there => ?_
        by_cases own : old.scope = scope
        · have same := Table.eq_of_key there (Table.mem_of_find found)
            (own.trans (Table.find_key found).symm)
          rw [if_pos own, same, if_pos]
          simp [Table.find_key found, on]
        · rw [if_neg own, if_neg]
          simp [own]

theorem Discovered.effect {upper : Int} {stream : Stream} {new : GapRow} (sound : Sound s)
    (found : Discovered scope upper stream new s t) : StepEffect fresh s t := by
  have known := Table.mem_of_find found.found
  have first : new.gap.first = stream.seenSeq + 1 := congrArg Span.first found.range
  have last : new.gap.last = upper := congrArg Span.last found.range
  have before := (sound.seen stream known).1
  have later := found.later
  have streams : Streams s t := by
    refine ⟨fun old there => ?_⟩
    rw [found.streams]
    refine ⟨_, List.mem_map.2 ⟨old, there, rfl⟩, ?_⟩
    split
    · next own =>
      have same := Table.eq_of_key there known (own.trans (Table.find_key found.found).symm)
      exact ⟨rfl, rfl, same ▸ Int.le_of_lt later, id⟩
    · exact ⟨rfl, rfl, le_refl _, id⟩
  refine ⟨⟨id, [new], by rw [found.gaps, List.map_id], fun row _ => .refl fresh row, ?_⟩, streams, ?_⟩
  · intro row there
    rw [List.mem_singleton.1 there]
    exact found.empty
  refine ⟨?_, ?_, ?_, ?_⟩
  · intro row there
    rw [found.gaps] at there
    obtain old | added := List.mem_append.1 there
    · exact sound.gaps row old
    · rw [List.mem_singleton.1 added]
      refine .inr ⟨by omega, by omega, last ▸ found.bounded, ?_, ?_, ?_⟩
      · rw [found.empty]
        exact .nil
      · rw [found.empty]
        exact List.forall_mem_nil _
      · rw [Gap.complete, found.empty, found.state]
        rfl
  · intro row there
    rw [found.streams] at there
    obtain ⟨old, member, rfl⟩ := List.mem_map.1 there
    have bound := sound.seen old member
    split
    · exact ⟨by show 0 ≤ upper; omega, found.bounded⟩
    · exact bound
  · intro row there
    rw [found.streams] at there
    obtain ⟨old, member, rfl⟩ := List.mem_map.1 there
    have tiled := sound.tiled old member
    rw [found.gaps, ranges_append]
    by_cases own : old.scope = scope
    · have same := Table.eq_of_key member known (own.trans (Table.find_key found.found).symm)
      have mine : ranges [new] scope = [new.gap.range] := by
        have positive : 0 < new.gap.first := by omega
        simp [ranges, owns, found.owner, positive]
      rw [if_pos own]
      show Span.Tiled 1 upper (ranges s.gaps.rows old.scope ++ ranges [new] old.scope)
      rw [own] at tiled ⊢
      rw [mine, found.range]
      have follows : stream.seenSeq + 1 = old.seenSeq + 1 := by rw [same]
      have valid : stream.seenSeq + 1 ≤ upper := by omega
      exact @Span.Tiled.snoc _ _ _ ⟨stream.seenSeq + 1, upper⟩ tiled follows valid
    · have foreign : ranges [new] old.scope = [] := by
        have other : scope ≠ old.scope := Ne.symm own
        simp [ranges, owns, found.owner, other]
      rw [if_neg own, foreign, List.append_nil]
      exact tiled
  · intro row there positive
    rw [found.gaps] at there
    obtain old | added := List.mem_append.1 there
    · exact find_isSome_of_kept streams (sound.owned row old positive)
    · rw [List.mem_singleton.1 added, found.owner]
      exact find_isSome_of_kept streams (Option.isSome_iff_exists.2 ⟨stream, found.found⟩)

theorem saturatingAfter_eq (x : Int) (below : x ≤ i64Max - 1) : saturatingAfter x = x + 1 :=
  if_pos (by omega)

/-- A certified sequence keeps the spans of a range in order, and joins them. -/
theorem add_spec {updated : Gap} {sequence : Int} (recorded : Recorded row)
    (result : row.gap.add sequence = .ok updated) : ∃ spans,
      updated = { row.gap with verified := spans } ∧ Span.Normal spans ∧
        (∀ x, Span.Covers spans x ↔ Span.Covers row.gap.verified x ∨ x = sequence) ∧
        ∀ span ∈ spans, row.gap.first ≤ span.first ∧ span.last ≤ row.gap.last := by
  rw [Gap.add] at result
  obtain ⟨within, result⟩ := guard_ok.1 result
  simp only at result
  obtain ⟨_, result⟩ := guard_ok.1 result
  cases result
  have bounded := recorded.bounded
  simp only [Bool.or_eq_true, decide_eq_true_eq, not_or] at within
  obtain ⟨normal, covered⟩ := Span.insert_spec saturatingAfter_eq recorded.normal
    (x := sequence) (by omega) fun span there => by
      have upper := (recorded.inside span there).2
      omega
  refine ⟨_, rfl, normal, covered, fun span there => ?_⟩
  -- both ends of a span are covered, so they were covered before or are the sequence
  have bounds : ∀ x, span.Holds x → row.gap.first ≤ x ∧ x ≤ row.gap.last := by
    intro x holds
    obtain ⟨old, member, inside⟩ | rfl := (covered x).1 ⟨span, there, holds⟩
    · obtain ⟨lower, upper⟩ := recorded.inside old member
      exact ⟨Int.le_trans lower inside.1, Int.le_trans inside.2 upper⟩
    · omega
  have valid := normal.valid span there
  exact ⟨(bounds _ ⟨le_refl _, valid⟩).1, (bounds _ ⟨valid, le_refl _⟩).2⟩

theorem save_effect {current : GapRow} {cursor : Int}
    {spans : List Span} (sound : Sound s) (there : current ∈ s.gaps.rows)
    (recorded : Recorded current) (normal : Span.Normal spans)
    (inside : ∀ span ∈ spans, current.gap.first ≤ span.first ∧ span.last ≤ current.gap.last)
    (grows : ∀ x, Span.Covers current.gap.verified x → Span.Covers spans x)
    (only : ∀ x, Span.Covers spans x →
      Span.Covers current.gap.verified x ∨ fresh current.gap.scope x)
    (saved : save current.gap { current.gap with cursor := cursor, verified := spans } s = some t) :
    StepEffect fresh s t := by
  rw [save] at saved
  split at saved
  · cases saved
    refine .revised sound rfl (fun row member => ?_) (.of_eq rfl)
    split
    · next same =>
      simp only [sameRevision, Bool.and_eq_true, decide_eq_true_eq] at same
      have own := Table.eq_of_key member there same.1.1.1.1.1
      rw [own]
      refine ⟨rfl, rfl, rfl, fun unknown => ?_, fun _ => ?_, grows, only⟩
      · have positive := recorded.positive
        have zero := unknown.first
        omega
      · exact ⟨recorded.positive, recorded.valid, recorded.bounded, normal, inside, rfl⟩
    · exact .refl fresh row
  · cases saved

/-- The sequences that a step certifies: with effects that all match, while the scope is active -/
def Certifies (s : Ledger) (event : LedgerEvent) (scope : Scope) (sequence : Int) : Prop :=
  ∃ effects evidence, event = .certified scope sequence effects evidence (.ok true) ∧
    s.active scope = true ∧ effects ≠ [] ∧ ∀ effect ∈ effects, matchesEffect evidence scope effect = true

theorem certify_effect {sequence : Int} {effects : List Effect} {evidence : Evidence}
    {answer : Bool} (sound : Sound s)
    (result : certifyBody scope sequence effects evidence s = .ok (answer, t)) :
    StepEffect (Certifies s (.certified scope sequence effects evidence (.ok answer))) s t := by
  rw [certifyBody] at result
  obtain ⟨_, result⟩ | ⟨ready, result⟩ := ite_ok.1 result
  · cases result
    exact .refl sound
  · split at result
    · cases result
      exact .refl sound
    · next current found =>
      obtain ⟨_, result⟩ | ⟨matched, result⟩ := ite_ok.1 result
      · cases result
        exact .refl sound
      · obtain ⟨_, result⟩ | ⟨_, result⟩ := ite_ok.1 result
        · cases result
          exact .refl sound
        · obtain ⟨updated, added, result⟩ := bind_ok.1 result
          split at result
          · cases result
          · next saved =>
            cases result
            have there := List.mem_of_find?_eq_some found
            have selected := List.find?_some found
            simp only [Bool.and_eq_true, decide_eq_true_eq] at selected
            have recorded : Recorded current := by
              obtain unknown | recorded := sound.gaps current there
              · have zero := unknown.first
                have positive := selected.1.1.2
                omega
              · exact recorded
            obtain ⟨spans, rfl, normal, covered, inside⟩ := add_spec recorded added
            simp only [Bool.or_eq_true, Bool.not_eq_true', not_or, Bool.not_eq_false,
              List.isEmpty_iff] at ready matched
            have certified : Certifies s (.certified scope sequence effects evidence (.ok true))
                current.gap.scope sequence := by
              rw [selected.1.1.1]
              exact ⟨effects, evidence, rfl, ready.1, ready.2, List.all_eq_true.1 matched⟩
            refine save_effect sound there recorded normal inside
              (fun x old => (covered x).2 (.inl old)) (fun x new => ?_) saved
            obtain old | rfl := (covered x).1 new
            · exact .inl old
            · exact .inr certified

theorem StepEffect.streamed {u : Ledger}
    (effect : StepEffect fresh s t) (gaps : u.gaps = t.gaps) (unseen : Unseen t u) :
    StepEffect fresh s u := by
  obtain ⟨f, extra, rewritten⟩ := effect.rewritten
  refine ⟨⟨f, extra, by rw [gaps, rewritten.rows], rewritten.revised, rewritten.empty⟩, ⟨?_⟩, ?_⟩
  · intro stream there
    obtain ⟨middle, member, scope, unsealed_, seen, active⟩ := effect.streams.kept stream there
    obtain ⟨new, last, scope_, unsealed_', seen_, active_⟩ := unseen.kept middle member
    exact ⟨new, last, scope_.trans scope, unsealed_'.trans unsealed_, Int.le_trans seen seen_,
      fun on => active (active_ on)⟩
  · have still : Rewritten fresh t u id [] :=
      ⟨by rw [gaps, List.map_id, List.append_nil], fun row _ => .refl fresh row,
        List.forall_mem_nil _⟩
    exact effect.sound.unseen still (List.forall_mem_nil _) unseen

theorem finishPage_effect {expected : Gap} {through : Int} {answer : Bool} (sound : Sound s)
    (result : finishPageBody expected through s = .ok (answer, t)) : StepEffect fresh s t := by
  rw [finishPageBody] at result
  obtain ⟨progress, result⟩ := guard_ok.1 result
  obtain ⟨_, result⟩ | ⟨_, result⟩ := ite_ok.1 result
  · cases result
    exact .refl sound
  · split at result
    · cases result
      exact .refl sound
    · next current found =>
      obtain ⟨_, result⟩ | ⟨same, accepted⟩ := ite_ok.1 result
      · cases result
        exact .refl sound
      · have own := Decidable.not_not.1 same
        subst own
        have there := Table.mem_of_find found
        -- there is progress only in a range
        have recorded : Recorded current := by
          obtain unknown | recorded := sound.gaps current there
          · simp only [Bool.or_eq_true, decide_eq_true_eq, not_or, unknown.cursor,
              unknown.last] at progress
            omega
          · exact recorded
        simp only at accepted
        generalize saved : save current.gap { current.gap with cursor := through } s = outcome
          at accepted
        cases outcome with
        | none =>
          simp only [Except.ok.injEq, Prod.mk.injEq] at accepted
          exact .unchanged accepted.2.symm sound
        | some advanced =>
          have effect : StepEffect fresh s advanced :=
            save_effect sound there recorded recorded.normal recorded.inside (fun _ old => old)
              (fun _ => .inl) saved
          simp only at accepted
          obtain ⟨_, done⟩ | ⟨_, done⟩ := ite_ok.1 accepted
          · cases done
            exact effect.streamed rfl
              (.update advanced current.gap.scope _ _ fun _ => ⟨rfl, rfl, rfl⟩)
          · cases done
            exact effect

theorem step_effect {event : LedgerEvent} (sound : Sound s)
    (step : LedgerStep s event t) : StepEffect (Certifies s event) s t := by
  cases step with
  | @activated _ answer scope call =>
    cases answer with
    | error error => exact .unchanged (commit_error call) sound
    | ok done => exact activate_effect sound (commit_ok call)
  | @discovered _ answer scope upper call =>
    cases answer with
    | error error => exact .unchanged (commit_error call) sound
    | ok done =>
      obtain rfl | ⟨stream, new, found⟩ := discover_spec (commit_ok call)
      · exact .refl sound
      · exact found.effect sound
  | @marked _ answer scope detail call =>
    cases answer with
    | error error => exact .unchanged (commit_error call) sound
    | ok done => exact markUnknown_effect sound (commit_ok call)
  | @scanned _ answer scope call =>
    cases answer with
    | error error => exact .unchanged (commit_error call) sound
    | ok gap => exact next_effect sound (commit_ok call)
  | @certified _ answer scope sequence effects evidence call =>
    cases answer with
    | error error => exact .unchanged (commit_error call) sound
    | ok done => exact certify_effect sound (commit_ok call)
  | @paged _ answer gap through call =>
    cases answer with
    | error error => exact .unchanged (commit_error call) sound
    | ok done => exact finishPage_effect sound (commit_ok call)
  | faulted => exact .refl sound

/-! ## Runs -/

theorem Sound.start : Sound .empty :=
  ⟨List.forall_mem_nil _, List.forall_mem_nil _, List.forall_mem_nil _, List.forall_mem_nil _⟩

theorem run_sound (run : Run LedgerStep s events t) (sound : Sound s) : Sound t :=
  run.preserves Sound (fun _ _ _ step sound => (step_effect sound step).sound) sound

/-- Every gap is kept, with its range and with at least its spans. -/
theorem run_grows (run : Run LedgerStep s events t)
    (sound : Sound s) : ∀ row ∈ s.gaps.rows, ∃ new ∈ t.gaps.rows, new.id = row.id ∧
      new.gap.scope = row.gap.scope ∧ new.gap.range = row.gap.range ∧
      ∀ x, Span.Covers row.gap.verified x → Span.Covers new.gap.verified x := by
  induction run with
  | nil _ => exact fun row there => ⟨row, there, rfl, rfl, rfl, fun _ => id⟩
  | cons first _ ih =>
    intro row there
    have effect := step_effect sound first
    obtain ⟨f, extra, rewritten⟩ := effect.rewritten
    have own := rewritten.revised row there
    have member := List.mem_append_left extra (List.mem_map_of_mem (f := f) there)
    rw [← rewritten.rows] at member
    obtain ⟨new, last, id_, scope, range, grows⟩ := ih effect.sound (f row) member
    exact ⟨new, last, id_.trans own.id, scope.trans own.scope, range.trans own.range,
      fun x covered => grows x (own.grows x covered)⟩

/-- A stream that is not active stays so. -/
theorem run_retired (run : Run LedgerStep s events t)
    (sound : Sound s) {stream : Stream} (there : stream ∈ s.streams.rows)
    (retired : stream.active = false) : t.active stream.scope = false := by
  have kept : ∃ new ∈ t.streams.rows, new.scope = stream.scope ∧ new.active = false := by
    induction run generalizing stream with
    | nil _ => exact ⟨stream, there, rfl, retired⟩
    | cons first _ ih =>
      have effect := step_effect sound first
      obtain ⟨new, member, scope, _, _, active⟩ := effect.streams.kept stream there
      have still : new.active = false := by
        cases on : new.active with
        | false => rfl
        | true => rw [active on] at retired; cases retired
      obtain ⟨last, final, scope_, off⟩ := ih effect.sound member still
      exact ⟨last, final, scope_.trans scope, off⟩
  obtain ⟨new, member, scope, off⟩ := kept
  refine List.any_eq_false.2 fun other last on => ?_
  simp only [Bool.and_eq_true, decide_eq_true_eq] at on
  have same := Table.eq_of_key last member (on.1.trans scope.symm)
  rw [same, off] at on
  cases on.2

/-- A call of the run certified the sequence, while its scope was active. -/
def Certified (start : Ledger) (events : List LedgerEvent) (scope : Scope) (sequence : Int) : Prop :=
  ∃ front event back u, events = front ++ event :: back ∧ Run LedgerStep start front u ∧
    Certifies u event scope sequence

theorem run_certified (run : Run LedgerStep s events t)
    (sound : Sound s) (fresh : ∀ row ∈ s.gaps.rows, row.gap.verified = []) :
    ∀ row ∈ t.gaps.rows, ∀ x, Span.Covers row.gap.verified x → Certified s events row.gap.scope x := by
  refine run.records (fun events u => ∀ row ∈ u.gaps.rows, ∀ x, Span.Covers row.gap.verified x →
    Certified s events row.gap.scope x) ?_ ?_
  · intro past u event v reached step known row there x covered
    obtain ⟨f, extra, rewritten⟩ := (step_effect (run_sound reached sound) step).rewritten
    rw [rewritten.rows] at there
    obtain revised | added := List.mem_append.1 there
    · obtain ⟨old, member, rfl⟩ := List.mem_map.1 revised
      have own := rewritten.revised old member
      rw [own.scope]
      obtain before | now := own.only x covered
      · obtain ⟨front, first, back, w, rfl, left, certifies⟩ := known old member x before
        exact ⟨front, first, back ++ [event], w, by simp, left, certifies⟩
      · exact ⟨past, event, [], u, rfl, reached, now⟩
    · rw [rewritten.empty row added] at covered
      exact absurd covered (Span.not_covers_nil x)
  · intro row there x covered
    rw [fresh row there] at covered
    exact absurd covered (Span.not_covers_nil x)

/-! ## Coverage -/

theorem coversFrom_complete {seen expected : Int} {gaps : List Gap}
    (covered : coversFrom seen expected gaps = true) (x : Int) (lower : expected ≤ x)
    (upper : x ≤ seen) : ∃ gap ∈ gaps, gap.complete = true ∧ gap.range.Holds x := by
  induction gaps generalizing expected with
  | nil =>
    have ended := of_decide_eq_true covered
    omega
  | cons gap rest ih =>
    simp only [coversFrom, Bool.and_eq_true, Bool.not_eq_true', Bool.or_eq_false_iff,
      decide_eq_false_iff_not, Decidable.not_not, Bool.not_eq_false'] at covered
    obtain ⟨⟨⟨start, _⟩, complete⟩, more⟩ := covered
    by_cases inside : x ≤ gap.last
    · exact ⟨gap, List.mem_cons_self .., complete, ⟨by show gap.first ≤ x; omega, inside⟩⟩
    · obtain ⟨other, there, found⟩ := ih more (by omega)
      exact ⟨other, List.mem_cons_of_mem _ there, found⟩

theorem markUnknown_saved {detail : String}
    (result : markUnknownBody scope detail s = .ok ((), t)) :
    ∃ row ∈ t.gaps.rows, row.gap.scope = scope ∧ row.gap.first = 0 := by
  simp only [markUnknownBody] at result
  obtain ⟨saved, result⟩ := guard_ok.1 result
  cases result
  rw [Bool.not_eq_true', Bool.not_eq_false] at saved
  obtain ⟨row, there, same⟩ := List.any_eq_true.1 saved
  simp only [Bool.and_eq_true, decide_eq_true_eq] at same
  exact ⟨row, there, same.1.1.1, same.1.1.2⟩

/-- The gap that a successful `mark_unknown` leaves stays, and is never verified. -/
theorem run_marked (run : Run LedgerStep .empty events t)
    (marked : .marked scope (.ok ()) ∈ events) :
    ∃ row ∈ t.gaps.rows, row.gap.scope = scope ∧ Unknown row := by
  obtain ⟨front, back, rfl⟩ := List.append_of_mem marked
  obtain ⟨u, v, before, step, after⟩ := run.split_at
  have sound := run_sound before .start
  have more := (step_effect sound step).sound
  cases step with
  | marked _ detail call =>
    obtain ⟨row, there, owner, first⟩ := markUnknown_saved (commit_ok call)
    obtain ⟨new, last, -, scope, range, -⟩ := run_grows after more row there
    refine ⟨new, last, scope.trans owner, ?_⟩
    -- a range from 0 on is that of no recorded sequence
    obtain unknown | recorded := (run_sound after more).gaps new last
    · exact unknown
    · have positive := recorded.positive
      have same : new.gap.first = row.gap.first := congrArg Span.first range
      omega

/-- What `scope_verified` answers for. -/
structure Coverage (start : Ledger) (events : List LedgerEvent) (scope : Scope) (through : Int)
    (ledger : Ledger) : Prop where
  active : ledger.active scope = true
  certified : ∃ stream, ledger.streams.find scope = some stream ∧ through ≤ stream.seenSeq ∧
    ∀ x, 1 ≤ x → x ≤ stream.seenSeq → Certified start events scope x
  gaps : ∀ row ∈ ledger.gaps.rows, row.state = .verified
  others : ∀ stream ∈ ledger.streams.rows, stream.scope ≠ scope → stream.isUnsealed = false

theorem scopeVerified_sound {start : Ledger} {through : Int}
    (history : ∀ row ∈ ledger.gaps.rows, ∀ x, Span.Covers row.gap.verified x →
      Certified start events row.gap.scope x)
    (verified : scopeVerified scope through ledger = true) :
    Coverage start events scope through ledger := by
  rw [scopeVerified, scopeVerifiedIn] at verified
  split at verified
  · cases verified
  · next stream found =>
    obtain ⟨found, active⟩ := Option.filter_eq_some_iff.1 found
    simp only at verified
    split at verified
    · cases verified
    · next bounds =>
      split at verified
      · cases verified
      · next sealed_ =>
        split at verified
        · cases verified
        · next all =>
          simp only [Bool.or_eq_true, decide_eq_true_eq, not_or] at bounds
          refine ⟨?_, ⟨stream, found, by omega, fun x lower upper => ?_⟩, ?_, ?_⟩
          · refine List.any_eq_true.2 ⟨stream, Table.mem_of_find found, ?_⟩
            simp [Table.find_key found, active]
          · obtain ⟨gap, there, complete, holds⟩ := coversFrom_complete verified x lower upper
            obtain ⟨row, sorted, rfl⟩ := List.mem_map.1 there
            obtain ⟨member, selected⟩ := List.mem_filter.1 (List.mem_mergeSort.1 sorted)
            simp only [Bool.and_eq_true, decide_eq_true_eq] at selected
            have spans := of_decide_eq_true complete
            have known := history row member x
            rw [spans, selected.1.1] at known
            exact known (Span.covers_cons.2 (.inl holds))
          · intro row there
            have open_ := List.any_eq_false.1 (Bool.eq_false_iff.2 all) row there
            simpa using open_
          · intro other there foreign
            cases unsealed_ : other.isUnsealed with
            | false => rfl
            | true =>
              have listed : other.scope ∈ othersUnsealed ledger scope := by
                refine List.mem_map.2 ⟨other, List.mem_filter.2 ⟨there, ?_⟩, rfl⟩
                simp [unsealed_, foreign]
              exact absurd (List.ne_nil_of_mem listed) sealed_

/-- The ledger is sound: ranges tile what was seen, spans are normal, grow, and hold certified
sequences only, retired scopes stay retired, a verified scope was covered, and what was marked
as unknown stays so. -/
theorem ledger_sound {s t : Ledger} {before after : List LedgerEvent}
    (earlier : Run LedgerStep .empty before s) (later : Run LedgerStep s after t) :
    (∀ stream ∈ t.streams.rows,
      Span.Tiled 1 stream.seenSeq (ranges t.gaps.rows stream.scope)) ∧
    (∀ row ∈ t.gaps.rows, 0 < row.gap.first → (t.streams.find row.gap.scope).isSome) ∧
    (∀ row ∈ t.gaps.rows, Span.Normal row.gap.verified ∧
      (row.state = .verified ↔ ∀ x, row.gap.range.Holds x → Span.Covers row.gap.verified x)) ∧
    (∀ row ∈ s.gaps.rows, ∃ new ∈ t.gaps.rows, new.id = row.id ∧
      new.gap.scope = row.gap.scope ∧ new.gap.range = row.gap.range ∧
      ∀ x, Span.Covers row.gap.verified x → Span.Covers new.gap.verified x) ∧
    (∀ row ∈ t.gaps.rows, ∀ x, Span.Covers row.gap.verified x →
      Certified .empty (before ++ after) row.gap.scope x) ∧
    (∀ stream ∈ s.streams.rows, stream.active = false → t.active stream.scope = false) ∧
    (∀ scope through, scopeVerified scope through t = true →
      Coverage .empty (before ++ after) scope through t) ∧
    (∀ scope, .marked scope (.ok ()) ∈ before ++ after →
      ∃ row ∈ t.gaps.rows, row.gap.scope = scope ∧ Unknown row) := by
  have whole := earlier.append later
  have middle := run_sound earlier .start
  have sound := run_sound whole .start
  have history := run_certified whole .start (List.forall_mem_nil _)
  refine ⟨sound.tiled, sound.owned, ?_, run_grows later middle, history, ?_, ?_, ?_⟩
  · exact fun row there => ⟨sound.normal there, sound.verified_iff there⟩
  · exact fun stream there retired => run_retired later middle there retired
  · exact fun scope through verified => scopeVerified_sound history verified
  · exact fun scope => run_marked whole

/-! One sequence is seen and certified -/

def oneScope : Scope := ⟨"owner", 7⟩

def noEvidence : Evidence := ⟨[], [], [], [], [], [], []⟩

def oneActive : Ledger := (activate oneScope .empty).2

def oneSeen : Ledger := (discover oneScope 1 oneActive).2

def oneCertified : Ledger := (certify oneScope 1 [.noRequiredStore] noEvidence oneSeen).2

theorem one_covered : Coverage .empty
    [.activated oneScope (.ok ()), .discovered oneScope 1 (.ok ()),
      .certified oneScope 1 [.noRequiredStore] noEvidence (.ok true)] oneScope 1 oneCertified := by
  have earlier : Run LedgerStep .empty
      [.activated oneScope (.ok ()), .discovered oneScope 1 (.ok ())] oneSeen :=
    .cons (.activated oneScope (Prod.ext (by decide +kernel) rfl))
      (.single (.discovered oneScope 1 (Prod.ext (by decide +kernel) rfl)))
  have later : Run LedgerStep oneSeen
      [.certified oneScope 1 [.noRequiredStore] noEvidence (.ok true)] oneCertified :=
    .single (.certified oneScope 1 [.noRequiredStore] noEvidence
      (Prod.ext (by decide +kernel) rfl))
  exact (ledger_sound earlier later).2.2.2.2.2.2.1 oneScope 1 (by decide +kernel)

end CodexRemote.Verified.ObservationGap

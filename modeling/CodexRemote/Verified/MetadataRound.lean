import Mathlib.Data.List.Rotate
import Mathlib.Data.Nat.ModEq
import CodexRemote.Foundations.Runs
import CodexRemote.Runtime.Scheduler

/-! # Rounds of discovery are atomic

A round, and each source in it, works on a draft that only appends to the queues.  So a draft
that is dropped leaves the queues as they were, and a position recorded in one source's draft
names the same hint at the end of the round.
-/

namespace CodexRemote.Verified.MetadataRound

open Foundations CodexRemote.Runtime
open Store (RoundAnswers ReadRound StoreError)

variable {ε : Type}

/-! ## Queues that only grow -/

structure Extends (ready next : Ready ε) : Prop where
  state : ready.state <+: next.state
  http : ready.http <+: next.http

theorem Extends.refl (ready : Ready ε) : Extends ready ready :=
  ⟨List.prefix_rfl, List.prefix_rfl⟩

theorem Extends.trans {a b c : Ready ε} (left : Extends a b) (right : Extends b c) :
    Extends a c :=
  ⟨left.state.trans right.state, left.http.trans right.http⟩

/-- What a draft appended is cut off again. -/
theorem Extends.drop {ready next : Ready ε} (grown : Extends ready next) :
    (ReadyDraft.of ready).drop next = ready := by
  obtain ⟨state, http⟩ := grown
  rw [List.prefix_iff_eq_take] at state http
  simp only [ReadyDraft.drop, ReadyDraft.of, ← state, ← http]

theorem durable_extends (ready : Ready ε) (entry : Entry) (active : String → Bool) :
    Extends ready (ready.durable entry active) := by
  rw [Ready.durable]
  split
  · exact .refl ready
  · split
    · split
      · exact .refl ready
      · exact ⟨List.prefix_append _ _, List.prefix_rfl⟩
    · split
      · exact ⟨List.prefix_rfl, List.prefix_append _ _⟩
      · exact .refl ready

/-- The entries offered to the queues, one after the other -/
def offerAll (active : String → Bool) (entries : List (Store.Entry Rat)) (ready : Ready ε) :
    Ready ε :=
  entries.foldl (fun ready entry => ready.durable (hint entry) active) ready

theorem offerAll_extends (active : String → Bool) (entries : List (Store.Entry Rat))
    (ready : Ready ε) : Extends ready (offerAll active entries ready) := by
  induction entries generalizing ready with
  | nil => exact .refl ready
  | cons entry rest ih => exact (durable_extends ready (hint entry) active).trans (ih _)

theorem offerAll_append (active : String → Bool) (front back : List (Store.Entry Rat))
    (ready : Ready ε) : offerAll active (front ++ back) ready =
      offerAll active back (offerAll active front ready) := List.foldl_append

variable {active : String → Bool} {answers : RoundAnswers Rat} {index : Nat} {scans : List Scan}
  {s t : Ready ε × ReadRound}

/-- `offer_pending` offers the first entries and keeps the others in order. -/
theorem offerPending_ok {pending left : List (Store.Entry Rat)}
    {ready next : Ready ε} (result : offerPending active pending ready = (left, next)) :
    ∃ offered, pending = offered ++ left ∧ next = offerAll active offered ready := by
  induction pending generalizing ready with
  | nil =>
    cases result
    exact ⟨[], rfl, rfl⟩
  | cons entry rest ih =>
    rw [offerPending] at result
    split at result
    · obtain ⟨offered, same, all⟩ := ih result
      exact ⟨entry :: offered, by rw [same]; rfl, all⟩
    · cases result
      exact ⟨[], rfl, rfl⟩

/-! ## Visits of one source -/

/-- What one source did in a round. -/
structure Visit where
  index : Nat
  source : Store.Source
  result : Except StoreError (Option PageMetadata)
  /-- the scan after the visit -/
  scan : Scan
  /-- the positions of the state work that its page appended, from the first to before the last -/
  first : Nat
  last : Nat
  /-- the entries of its page that were judged unprovable -/
  judged : List (Store.Entry Rat)

/-- The visit of one source of the given scans. -/
inductive VisitStep (answers : RoundAnswers Rat) (active : String → Bool) (scans : List Scan) :
    Ready ε × ReadRound → Visit → Ready ε × ReadRound → Prop where
  /-- the source failed: its scan and the queues are as before -/
  | failed {ready round after index scan error} (found : scans[index]? = some scan) :
      VisitStep answers active scans (ready, round)
        ⟨index, scan.source, .error error, scan, 0, 0, []⟩ (ready, after)
  /-- no page was due: entries of an earlier page are offered, and the reader is not asked -/
  | waited {ready round index scan offered left} (found : scans[index]? = some scan)
      (cut : scan.pending = offered ++ left) :
      VisitStep answers active scans (ready, round)
        ⟨index, scan.source, .ok none, { scan with pending := left }, 0, 0, []⟩
        (offerAll active offered ready, round)
  /-- a page was read: what was pending is offered, and then entries of the page -/
  | paged {ready round middle after index scan read judged offered left oversized held later next}
      (found : scans[index]? = some scan)
      (page : round.page answers scan.source
        (if scan.cursor.finished then .start else scan.cursor) = (.ok read, middle))
      (negative : negativesOf answers middle scan.source read.page.entries = (.ok judged, after))
      (cut : read.page.entries = offered ++ left) :
      VisitStep answers active scans (ready, round)
        ⟨index, scan.source,
          .ok (some ⟨oversized, held, deferredFrom judged (offerAll active scan.pending ready).state.length
            (offerAll active (scan.pending ++ offered) ready).state⟩),
          { scan with cursor := read.cursor, pending := left, wake := later, next := next },
          (offerAll active scan.pending ready).state.length,
          (offerAll active (scan.pending ++ offered) ready).state.length, judged⟩
        (offerAll active (scan.pending ++ offered) ready, after)

/-- Discovery only appends, and what succeeds is a visit. -/
theorem discover_spec {now : Rat} {scan candidate : Scan} {ready next : Ready ε}
    {round after : ReadRound} {result : Except StoreError (Option PageMetadata)}
    (ran : scan.discover answers active now ready round = (result, candidate, next, after))
    (found : scans[index]? = some scan) :
    Extends ready next ∧ ∀ report, result = .ok report → candidate.source = scan.source ∧
      ∃ first last judged, VisitStep answers active scans (ready, round)
        ⟨index, scan.source, .ok report, candidate, first, last, judged⟩ (next, after) := by
  simp only [Scan.discover] at ran
  generalize offering : offerPending active scan.pending ready = outcome at ran
  obtain ⟨left, offeredReady⟩ := outcome
  obtain ⟨offered, cut, all⟩ := offerPending_ok offering
  subst all
  have grown := offerAll_extends active offered ready
  have waited : VisitStep answers active scans (ready, round)
      ⟨index, scan.source, .ok none, { scan with pending := left }, 0, 0, []⟩
      (offerAll active offered ready, round) := .waited found cut
  split at ran
  · cases ran
    refine ⟨grown, ?_⟩
    rintro report ⟨⟩
    exact ⟨rfl, 0, 0, [], waited⟩
  · next nothing =>
    have empty : left = [] := by simpa using nothing
    subst empty
    rw [List.append_nil] at cut
    subst cut
    split at ran
    · cases ran
      refine ⟨grown, ?_⟩
      rintro report ⟨⟩
      exact ⟨rfl, 0, 0, [], waited⟩
    · split at ran
      · cases ran
        exact ⟨grown, nofun⟩
      · next read middle page =>
        split at ran
        · cases ran
          exact ⟨grown, nofun⟩
        · next judged negative =>
          generalize offering : offerPending active read.page.entries
            (offerAll active scan.pending ready) = outcome at ran
          obtain ⟨left, last⟩ := outcome
          obtain ⟨offered, cut, all⟩ := offerPending_ok offering
          rw [← offerAll_append] at all
          subst all
          cases ran
          refine ⟨offerAll_extends active _ ready, ?_⟩
          rintro report ⟨⟩
          exact ⟨rfl, _, _, _, .paged found page negative cut⟩

/-- The loop's turn for one source is a visit of it. -/
theorem visit_step {answers : RoundAnswers Rat} {active : String → Bool} {now : Nat → Rat}
    {rotation offset : Nat} {scans : List Scan} {draft : RoundDraft ε} {round : ReadRound}
    {original : Scan}
    (found : draft.staged[(rotation + offset) % draft.staged.length]? = some original)
    (before : scans[(rotation + offset) % draft.staged.length]? = some original) :
    ∃ v : Visit, v.index = (rotation + offset) % draft.staged.length ∧
      (visit answers active now rotation (draft, round) offset).1.staged =
        draft.staged.set v.index v.scan ∧
      (visit answers active now rotation (draft, round) offset).1.reports =
        draft.reports ++ [(v.source, v.result)] ∧
      VisitStep answers active scans (draft.ready, round) v
        ((visit answers active now rotation (draft, round) offset).1.ready,
          (visit answers active now rotation (draft, round) offset).2) := by
  simp only [visit, found]
  generalize ran : original.discover answers active (now offset) draft.ready round = outcome
  obtain ⟨result, candidate, next, after⟩ := outcome
  obtain ⟨grown, ok⟩ := discover_spec ran before
  cases result with
  | error error =>
    refine ⟨⟨_, original.source, .error error, original, 0, 0, []⟩, rfl, ?_, rfl, ?_⟩
    · obtain ⟨inside, here⟩ := List.getElem?_eq_some_iff.1 found
      show draft.staged = draft.staged.set _ original
      rw [← here, List.set_getElem_self]
    · simp only [grown.drop]
      exact .failed before
  | ok report =>
    obtain ⟨same, first, last, judged, step⟩ := ok report rfl
    refine ⟨_, rfl, rfl, ?_, step⟩
    simp only [same]

/-! ## Rounds -/

theorem VisitStep.extends {v : Visit} (step : VisitStep answers active scans s v t) :
    Extends s.1 t.1 := by
  cases step with
  | failed found => exact .refl _
  | waited found cut => exact offerAll_extends active _ _
  | paged found page negative cut => exact offerAll_extends active _ _

theorem run_extends {visits : List Visit}
    (run : Run (VisitStep answers active scans) s visits t) : Extends s.1 t.1 := by
  induction run with
  | nil => exact .refl _
  | cons first _ ih => exact first.extends.trans ih

/-- The visits of the first turns of the loop. -/
structure Visited (answers : RoundAnswers Rat) (active : String → Bool) (rotation : Nat)
    (scans : List Scan) (ready : Ready ε) (turns : Nat) (state : RoundDraft ε × ReadRound)
    (visits : List Visit) : Prop where
  length : state.1.staged.length = scans.length
  order : visits.map (·.index) = (List.range turns).map fun offset => (rotation + offset) % scans.length
  reports : state.1.reports = visits.map fun v => (v.source, v.result)
  /-- a scan that was visited is as its visit left it, and any other as it was -/
  kept : ∀ v ∈ visits, state.1.staged[v.index]? = some v.scan
  others : ∀ index, index ∉ visits.map (·.index) → state.1.staged[index]? = scans[index]?
  run : Run (VisitStep answers active scans) (ready, .start) visits (state.1.ready, state.2)

theorem mod_add_inj {n a b c : Nat} (hb : b < n) (hc : c < n) (same : (a + b) % n = (a + c) % n) :
    b = c := by
  have congr : Nat.ModEq n b c := Nat.ModEq.add_left_cancel' a same
  rwa [Nat.ModEq, Nat.mod_eq_of_lt hb, Nat.mod_eq_of_lt hc] at congr

theorem visited_turns {answers : RoundAnswers Rat} {active : String → Bool} {now : Nat → Rat}
    {rotation : Nat} {scans : List Scan} {ready : Ready ε} {turns : Nat}
    (within : turns ≤ scans.length) : ∃ visits, Visited answers active rotation scans ready turns
      ((List.range turns).foldl (visit answers active now rotation) (⟨scans, ready, []⟩, .start))
      visits := by
  induction turns with
  | zero => exact ⟨[], rfl, rfl, rfl, by simp, by simp, .nil _⟩
  | succ turns ih =>
    obtain ⟨visits, past⟩ := ih (Nat.le_of_succ_le within)
    rw [List.range_succ, List.foldl_append, List.foldl_cons, List.foldl_nil]
    generalize (List.range turns).foldl (visit answers active now rotation)
      (⟨scans, ready, []⟩, .start) = state at past
    obtain ⟨draft, round⟩ := state
    have inside : (rotation + turns) % draft.staged.length < scans.length := by
      rw [past.length]
      exact Nat.mod_lt _ (by omega)
    -- the source of this turn was not visited before
    have fresh : (rotation + turns) % draft.staged.length ∉ visits.map (·.index) := by
      rw [past.order, past.length]
      intro visited
      obtain ⟨offset, earlier, same⟩ := List.mem_map.1 visited
      have below := List.mem_range.1 earlier
      have equal := mod_add_inj (by omega) (by omega) same
      omega
    have before := List.getElem?_eq_getElem inside
    have found := (past.others _ fresh).trans before
    obtain ⟨v, index, staged, reports, step⟩ := @visit_step _ answers active now rotation turns scans
      draft round _ found before
    refine ⟨visits ++ [v], ?_, ?_, ?_, ?_, ?_, ?_⟩
    · rw [staged, List.length_set]
      exact past.length
    · rw [List.map_append, past.order, List.range_succ, List.map_append, List.map_singleton, index,
        past.length]
      rfl
    · rw [reports, past.reports, List.map_append]
      rfl
    · intro other member
      rw [staged]
      obtain old | new := List.mem_append.1 member
      · rw [List.getElem?_set_ne, past.kept other old]
        intro same
        rw [← index, same] at fresh
        exact fresh (List.mem_map_of_mem old)
      · rw [List.mem_singleton.1 new, List.getElem?_set_self]
        rw [index, past.length]
        rwa [past.length] at inside
    · intro other absent
      rw [List.map_append, List.mem_append, not_or] at absent
      rw [staged, List.getElem?_set_ne, past.others other absent.1]
      intro same
      exact absent.2 (by simp [same])
    · exact past.run.append (.single step)

/-! ## Orphans that are discarded -/

def isOrphan : StateWork ε → Bool
  | .durable entry => entry.source == .asyncOrphan
  | _ => false

/-- The hint at this position was appended by the page of the visit, and judged unprovable. -/
def Visit.judges (v : Visit) (item : StateWork ε) (index : Nat) : Bool :=
  match item with
  | .durable entry => decide (v.first ≤ index ∧ index < v.last) && v.judged.any (hint · == entry)
  | _ => false

theorem mem_zipIdx_drop {α : Type} {items : List α} {start index : Nat} {item : α} :
    (item, index) ∈ items.zipIdx.drop start ↔ start ≤ index ∧ items[index]? = some item := by
  rw [List.mem_iff_getElem?]
  simp only [List.getElem?_drop, List.getElem?_zipIdx, Option.map_eq_some_iff, Prod.mk.injEq,
    Nat.zero_add]
  constructor
  · rintro ⟨place, found, there, rfl, rfl⟩
    exact ⟨Nat.le_add_right .., there⟩
  · rintro ⟨later, there⟩
    refine ⟨index - start, item, ?_, rfl, ?_⟩ <;> rw [Nat.add_sub_cancel' later]
    exact there

theorem mem_deferredFrom {negatives : List (Store.Entry Rat)} {start : Nat}
    {state : List (StateWork ε)} {entry : Entry} :
    (index, entry) ∈ deferredFrom negatives start state ↔ start ≤ index ∧
      state[index]? = some (.durable entry) ∧ negatives.any (hint · == entry) = true := by
  simp only [deferredFrom, List.mem_filterMap, Prod.exists]
  constructor
  · rintro ⟨item, place, member, made⟩
    obtain ⟨later, there⟩ := mem_zipIdx_drop.1 member
    cases item with
    | durable found =>
      simp only [Option.ite_none_right_eq_some, Option.some.injEq, Prod.mk.injEq] at made
      obtain ⟨negative, rfl, rfl⟩ := made
      exact ⟨later, there, negative⟩
    | live envelope => cases made
    | writerRetry retry => cases made
  · rintro ⟨later, there, negative⟩
    exact ⟨_, index, mem_zipIdx_drop.2 ⟨later, there⟩, by simp [negative]⟩

theorem prefix_getElem? {α : Type} {front whole : List α} (part : front <+: whole)
    {item : α} : front[index]? = some item ↔ index < front.length ∧ whole[index]? = some item := by
  obtain ⟨rest, rfl⟩ := part
  constructor
  · intro found
    have inside := (List.getElem?_eq_some_iff.1 found).1
    exact ⟨inside, (List.getElem?_append_left inside).trans found⟩
  · rintro ⟨inside, found⟩
    rwa [List.getElem?_append_left inside] at found

/-- At the end of the round, a position that a visit recorded is that of the hint it judged. -/
theorem deferred_judges {v : Visit} {last : Ready ε}
    (step : VisitStep answers active scans s v t) (grown : Extends t.1 last)
    {entry : Entry} (found : last.state[index]? = some (.durable entry)) :
    (index, entry) ∈ deferredOf [(v.source, v.result)] ↔
      v.judges (.durable entry : StateWork ε) index = true := by
  cases step with
  | failed found => simp [deferredOf, Visit.judges]
  | waited found cut => simp [deferredOf, Visit.judges]
  | paged found page negative cut =>
    rw [show deferredOf [_] = _ from List.flatMap_singleton .., mem_deferredFrom,
      prefix_getElem? grown.state]
    simp only [Visit.judges, Bool.and_eq_true, decide_eq_true_eq]
    constructor
    · rintro ⟨later, ⟨inside, _⟩, negative⟩
      exact ⟨⟨later, inside⟩, negative⟩
    · rintro ⟨⟨later, inside⟩, negative⟩
      exact ⟨later, ⟨inside, by assumption⟩, negative⟩

theorem deferredOf_cons (report : DiscoveryResult) (reports : List DiscoveryResult) :
    deferredOf (report :: reports) = deferredOf [report] ++ deferredOf reports := by
  simp [deferredOf]

theorem discards_run {visits : List Visit} {last : Ready ε}
    (run : Run (VisitStep answers active scans) s visits t) (grown : Extends t.1 last)
    {item : StateWork ε} (found : last.state[index]? = some item) :
    discards (deferredOf (visits.map fun v => (v.source, v.result))) item index =
      (isOrphan item && visits.any (·.judges item index)) := by
  cases item with
  | live envelope => rfl
  | writerRetry retry => rfl
  | durable entry =>
    rw [discards, isOrphan]
    congr 1
    rw [Bool.eq_iff_iff, List.any_eq_true, List.any_eq_true]
    have recorded : (∃ pair ∈ deferredOf (visits.map fun v => (v.source, v.result)),
        (pair.1 == index && pair.2 == entry) = true) ↔
        (index, entry) ∈ deferredOf (visits.map fun v => (v.source, v.result)) := by
      constructor
      · rintro ⟨⟨place, original⟩, member, same⟩
        simp only [Bool.and_eq_true, beq_iff_eq] at same
        obtain ⟨rfl, rfl⟩ := same
        exact member
      · intro member
        exact ⟨_, member, by simp⟩
    refine Iff.trans recorded ?_
    clear recorded
    induction run with
    | nil => simp [deferredOf]
    | cons first rest ih =>
      have here := deferred_judges first ((run_extends rest).trans grown) found
      rw [List.map_cons, deferredOf_cons, List.mem_append, here, ih grown]
      simp

/-! ## Whole rounds -/

/-- A round that succeeds: what it did with each source, in rotation order. -/
structure RoundOutcome (answers : RoundAnswers Rat) (active : String → Bool)
    (before after : Discovery ε) (reports : List DiscoveryResult) (visits : List Visit) : Prop where
  /-- every source is visited once -/
  order : visits.map (·.index) = (List.range before.scans.length).rotate before.next
  reported : reports = visits.map fun v => (v.source, v.result)
  length : after.scans.length = before.scans.length
  scans : ∀ v ∈ visits, after.scans[v.index]? = some v.scan
  next : after.next = (before.next + 1) % before.scans.length
  /-- what the visits did, one after the other, from the queues as they were -/
  run : ∃ round, Run (VisitStep answers active before.scans) (before.ready, .start) visits
    (after.ready, round) ∧ round.finish answers = .ok ()
  /-- what was in the queues keeps its position -/
  grown : Extends before.ready after.ready
  /-- exactly the orphans that a page of this round appended and judged are discarded -/
  discarded : discardOrphans (deferredOf reports) after.ready = { after.ready with
    state := (after.ready.state.zipIdx.filter fun (item, index) =>
      !(isOrphan item && visits.any (·.judges item index))).map Prod.fst }

theorem rotated (n rotation : Nat) :
    (List.range n).map (fun offset => (rotation + offset) % n) = (List.range n).rotate rotation := by
  refine List.ext_getElem (by simp) ?_
  intro index first second
  rw [List.getElem_map, List.getElem_rotate, List.getElem_range, List.getElem_range,
    List.length_range, Nat.add_comm]

/-- A round that fails changes nothing.  In one that succeeds each source is visited once in
rotation order, what was queued stays where it is, and the discard takes exactly the orphans that
this round appended and judged unprovable. -/
theorem metadata_round_atomic {answers : RoundAnswers Rat} {active : String → Bool}
    {now : Nat → Rat} {before after : Discovery ε}
    {answer : Except StoreError (List DiscoveryResult)}
    (ran : readMetadataRound answers active now before = (answer, after)) :
    (∀ error, answer = .error error → after = before) ∧
    ∀ reports, answer = .ok reports → (before.scans = [] ∧ reports = [] ∧ after = before) ∨
      ∃ visits, RoundOutcome answers active before after reports visits := by
  rw [readMetadataRound] at ran
  split at ran
  · next none_ =>
    cases ran
    refine ⟨nofun, ?_⟩
    rintro reports ⟨⟩
    exact .inl ⟨List.isEmpty_iff.1 none_, rfl, rfl⟩
  · next some_ =>
    have positive : 0 < before.scans.length := by
      rw [List.length_pos_iff]
      simpa using some_
    obtain ⟨visits, visited⟩ := @visited_turns _ answers active now
      (before.next % before.scans.length) before.scans before.ready _ le_rfl
    have grown := run_extends visited.run
    simp only [Store.readRound] at ran
    generalize (List.range before.scans.length).foldl
      (visit answers active now (before.next % before.scans.length))
      (⟨before.scans, before.ready, []⟩, .start) = state at visited ran grown
    obtain ⟨draft, round⟩ := state
    cases finished : round.finish answers with
    | error failure =>
      simp only [finished, Except.map] at ran
      cases ran
      refine ⟨?_, nofun⟩
      intro error _
      rw [grown.drop]
    | ok done =>
      simp only [finished, Except.map] at ran
      cases ran
      refine ⟨nofun, ?_⟩
      rintro reports ⟨⟩
      refine .inr ⟨visits, ?_, visited.reports, visited.length, visited.kept, ?_,
        ⟨round, visited.run, finished⟩, grown, ?_⟩
      · rw [visited.order, rotated]
        have whole := List.rotate_mod (List.range before.scans.length) before.next
        rwa [List.length_range] at whole
      · simp
      · rw [visited.reports, discardOrphans]
        congr 2
        refine List.filter_congr ?_
        rintro ⟨item, index⟩ member
        have found : draft.ready.state[index]? = some item := by
          have there := @mem_zipIdx_drop _ draft.ready.state 0 index item
          rw [List.drop_zero] at there
          exact (there.1 member).2
        simp only [discards_run visited.run (.refl _) found]

/-! ## Pages of the store -/

/-- A round whose reads are pages of one snapshot answers as the round of that snapshot does. -/
theorem page_of_snapshot {τ : Type} [LinearOrder τ] [Zero τ] {parts : String → Store.ReceiptParts}
    {db : Store.CompletionDb τ} {stored : Store.MetadataReadRound τ} {round : ReadRound}
    {answers : RoundAnswers τ} {opened : Except StoreError (Store.CompletionDb τ)}
    {source : Store.Source} {cursor : Store.Cursor τ} (failed : round.failed = stored.failed)
    (sources : round.sources = stored.sources) (begun : round.opened = stored.snapshot.isSome)
    (snapshot : ∀ other, stored.snapshot = some other → other = db)
    (opening : answers.opened = opened.map fun _ => ()) (first : ∀ other, opened = .ok other → other = db)
    (read : answers.read source cursor = .ok
      ⟨(Store.pageIn parts db source cursor stored.runtime stored.generation).2,
        (Store.pageIn parts db source cursor stored.runtime stored.generation).1⟩) :
    (round.page answers source cursor).1 = (stored.page parts opened (answers.active round.checks)
      (answers.active (round.checks + 1)) source cursor).1 := by
  rw [ReadRound.page, Store.MetadataReadRound.page, failed, sources, begun, opening]
  split
  · rfl
  · split
    · rfl
    · cases shape : stored.snapshot with
      | some other =>
        rw [snapshot other shape]
        cases before : answers.active round.checks <;>
          cases after : answers.active (round.checks + 1) <;>
          simp [ReadRound.checkedRead, ReadRound.ensureActive, read, before, after]
      | none =>
        cases opened with
        | error error => rfl
        | ok other =>
          rw [first other rfl]
          cases before : answers.active round.checks <;>
            cases after : answers.active (round.checks + 1) <;>
            simp [Except.map, ReadRound.checkedRead, ReadRound.ensureActive, read, before, after]

/-! ## A round with one orphan -/

def orphanEntry : Store.Entry Rat := ⟨.asyncOrphan, "thread", "thread", "", 0, 0, ⟨0, 0, "thread"⟩⟩

/-- The queue cannot be read; the page of orphans has one entry, which is judged unprovable. -/
def oneOrphan : RoundAnswers Rat where
  opened := .ok ()
  active _ := .ok ()
  read source _ :=
    if source = .asyncOrphan then .ok ⟨⟨none, none, true⟩, ⟨[orphanEntry], false, 0⟩⟩
    else .error (.database "disk I/O error")
  unprovable _ := .ok [0]
  finished := .ok ()

def idleScans : Discovery Unit where
  scans := [⟨.queue, .start, 0, false, []⟩, ⟨.asyncOrphan, .start, 0, false, []⟩]
  next := 0
  ready := .empty

/-- The queue keeps its scan; the orphan is offered, and discarded after the round. -/
theorem orphan_discarded : ∃ reports visits after,
    readMetadataRound oneOrphan (fun _ => false) (fun _ => 0) idleScans = (.ok reports, after) ∧
    RoundOutcome oneOrphan (fun _ => false) idleScans after reports visits ∧
    after.ready.state.length = 1 ∧ (discardOrphans (deferredOf reports) after.ready).state.length = 0 := by
  have ran : readMetadataRound oneOrphan (fun _ => false) (fun _ => 0) idleScans =
      (.ok (readMetadataRound oneOrphan (fun _ => false) (fun _ => 0) idleScans).1.toOption.get!,
        (readMetadataRound oneOrphan (fun _ => false) (fun _ => 0) idleScans).2) := by rfl
  obtain ⟨none_, _⟩ | ⟨visits, outcome⟩ := (metadata_round_atomic ran).2 _ rfl
  · cases none_
  · exact ⟨_, visits, _, ran, outcome, by decide +kernel, by decide +kernel⟩

end CodexRemote.Verified.MetadataRound

import CodexRemote.Verified.Ingress.Moves
import CodexRemote.Verified.StopRevision.Order

/-! # The writes of a stop that goes through

Each loop of a stop succeeds when what it finds is as the stop wants it: an older hold names the same
thread, a request without a job can be held or was held by a stop, and the clock has a next revision.
-/

namespace CodexRemote.Verified.StopAcceptance

open Foundations Store Store.Stop
open Verified.Stop (HoldsKept)

variable {σ : Type} {hooks : StopHooks σ} {db next : StopDb σ} {target operation : String}

/-! ## Holds -/

/-- Holds of these requests were added for the target, and nothing else changed. -/
structure HoldsAdded (target : String) (ids : List String) (db next : StopDb σ) : Prop where
  only : ∃ holds, next = { db with holds := holds }
  kept : HoldsKept db next
  added : ∀ id hold, next.holds.find id = some hold →
    db.holds.find id = some hold ∨ (id ∈ ids ∧ hold.targetThreadId = target)

theorem HoldsAdded.refl (target : String) (db : StopDb σ) : HoldsAdded target [] db db :=
  ⟨⟨db.holds, rfl⟩, .refl db, fun _ _ found => .inl found⟩

theorem HoldsAdded.trans {ids others : List String} {a b c : StopDb σ}
    (left : HoldsAdded target ids a b) (right : HoldsAdded target others b c) :
    HoldsAdded target (ids ++ others) a c := by
  obtain ⟨holds, rfl⟩ := left.only
  obtain ⟨later, rfl⟩ := right.only
  refine ⟨⟨later, rfl⟩, left.kept.trans right.kept, ?_⟩
  intro id hold found
  obtain old | ⟨member, own⟩ := right.added id hold found
  · obtain older | ⟨member, own⟩ := left.added id hold old
    · exact .inl older
    · exact .inr ⟨List.mem_append_left _ member, own⟩
  · exact .inr ⟨List.mem_append_right _ member, own⟩

theorem HoldsAdded.weaken {ids others : List String} (added : HoldsAdded target ids db next)
    (listed : ids ⊆ others) : HoldsAdded target others db next :=
  ⟨added.only, added.kept, fun id hold found =>
    (added.added id hold found).imp_right fun new => ⟨listed new.1, new.2⟩⟩

theorem hold_added (db : StopDb σ) (target id reason evidence : String) :
    HoldsAdded target [id] db (hold db id target reason evidence) := by
  refine ⟨⟨_, rfl⟩, .hold db _ _ _ _, ?_⟩
  intro other found there
  have there : (db.holds.insertOrIgnore ⟨id, target, reason, evidence⟩).find other = some found :=
    there
  rw [Table.find_insertOrIgnore] at there
  split at there
  · next same =>
    have same : id = other := same
    cases old : db.holds.find other with
    | none =>
      rw [old] at there
      cases there
      exact .inr ⟨List.mem_singleton.2 same.symm, rfl⟩
    | some older =>
      rw [old] at there
      exact .inl there
  · exact .inl there

/-- Every hold that these requests have names the thread. -/
def HeldHere (target : String) (db : StopDb σ) (ids : List String) : Prop :=
  ∀ id ∈ ids, ∀ hold, db.holds.find id = some hold → hold.targetThreadId = target

theorem HeldHere.later {ids others : List String} (here : HeldHere target db ids)
    (added : HoldsAdded target others db next) : HeldHere target next ids := by
  intro id member hold found
  obtain old | ⟨_, own⟩ := added.added id hold found
  · exact here id member hold old
  · exact own

theorem holdSnapshot_kept (kept : HoldsKept db next) {id : String} {snapshot : HoldSnapshot}
    (seen : holdSnapshot db id = some snapshot) : holdSnapshot next id = some snapshot := by
  obtain ⟨hold, found, same⟩ := Option.map_eq_some_iff.1 seen
  rw [holdSnapshot, kept id hold found, Option.map_some, same]

theorem holdOne_accepts {refused : StoreError} {request : String × Json}
    (here : HeldHere target db [request.1]) (before : List HoldSnapshot) :
    ∃ snapshot next, holdOne hooks refused target (before, db) request =
        .ok (before ++ [snapshot], next) ∧
      HoldsAdded target [request.1] db next ∧ holdSnapshot next request.1 = some snapshot := by
  cases found : db.holds.find request.1 with
  | none =>
    refine ⟨(target, reason, hooks.render request.2), _, ?_, hold_added db target request.1 reason
      (hooks.render request.2), ?_⟩
    · simp only [holdOne, holdSnapshot, found, Option.map_none, Option.getD_none, ne_eq,
        not_true_eq_false, if_false]
    · show ((db.holds.insertOrIgnore _).find request.1).map _ = _
      rw [Table.find_insertOrIgnore, if_pos rfl, found]
      rfl
  | some old =>
    have own := here request.1 (List.mem_singleton.2 rfl) old found
    refine ⟨(target, old.reason, old.evidence), _, ?_, hold_added db target request.1 old.reason
      old.evidence, ?_⟩
    · simp only [holdOne, holdSnapshot, found, Option.map_some, Option.getD_some, own, ne_eq,
        not_true_eq_false, if_false]
    · refine holdSnapshot_kept (hold_added db target request.1 old.reason old.evidence).kept ?_
      rw [holdSnapshot, found, Option.map_some, own]

theorem holdEach_accepts {refused : StoreError} {requests : List (String × Json)}
    (here : HeldHere target db (requests.map (·.1))) :
    ∃ holds next, holdEach hooks refused target db requests = .ok (holds, next) ∧
      HoldsAdded target (requests.map (·.1)) db next ∧
      List.Forall₂ (fun request snapshot => holdSnapshot next request.1 = some snapshot)
        requests holds := by
  suffices loop : ∀ before : List HoldSnapshot, ∃ holds next,
      requests.foldlM (holdOne hooks refused target) (before, db) = .ok (before ++ holds, next) ∧
        HoldsAdded target (requests.map (·.1)) db next ∧
        List.Forall₂ (fun request snapshot => holdSnapshot next request.1 = some snapshot)
          requests holds from loop []
  induction requests generalizing db with
  | nil => exact fun before => ⟨[], db, by rw [List.append_nil]; rfl, .refl target db, .nil⟩
  | cons request requests ih =>
    intro before
    have first : HeldHere target db [request.1] := fun id member =>
      here id (List.mem_singleton.1 member ▸ List.mem_cons_self ..)
    obtain ⟨snapshot, middle, ran, held, seen⟩ := @holdOne_accepts _ hooks _ _ refused _ first before
    have rest : HeldHere target db (requests.map (·.1)) := fun id member =>
      here id (List.mem_cons_of_mem _ member)
    obtain ⟨holds, next, others, later, all⟩ := ih (rest.later held) (before ++ [snapshot])
    refine ⟨snapshot :: holds, next, ?_, held.trans later, .cons (holdSnapshot_kept later.kept seen) all⟩
    rw [List.foldlM_cons]
    refine bind_ok.2 ⟨_, ran, ?_⟩
    rw [others, List.append_assoc]
    rfl

/-! ## The journal -/

/-- No trigger of another module refuses an update of the journal, whatever stands in the tables
that a stop writes before its revision. -/
def Unfenced (hooks : StopHooks σ) (db : StopDb σ) : Prop :=
  ∀ current : StopDb σ, current.archive = db.archive → current.rest = db.rest →
    ∀ before after, hooks.queue.fenceIngress current before after = none

/-- The rows of the journal are changed in place. -/
def Journalled (change : IngressRow → IngressRow) (db next : StopDb σ) : Prop :=
  ∃ ingress : Table IngressRow.ingressId, next = { db with ingress := ingress } ∧
    ingress.rows = db.ingress.rows.map change

theorem Journalled.find {change : IngressRow → IngressRow} (journal : Journalled change db next)
    (keeps : ∀ row, (change row).ingressId = row.ingressId) (key : String) :
    next.ingress.find key = (db.ingress.find key).map change := by
  obtain ⟨ingress, rfl, rows⟩ := journal
  exact Table.find_map rows keeps key

theorem updateIngress_accepts (unfenced : Unfenced hooks db) {condition : IngressRow → Bool}
    {assign : IngressRow → IngressRow} {keeps : ∀ r, (assign r).ingressId = r.ingressId}
    {row : IngressRow} (found : db.ingress.find row.ingressId = some row)
    (named : ∀ r, condition r = true → r.ingressId = row.ingressId) (chosen : condition row = true)
    (live : db.archive.frozen .ingressJournal row.ingressId = false) :
    ∃ next, updateIngress hooks.queue db condition assign keeps = .ok (1, next) ∧
      Journalled (fun r => if r.ingressId = row.ingressId then assign r else r) db next := by
  have selected : (condition row && !ingressFrozen db (assign row)) = true := by
    rw [chosen, ingressFrozen, keeps, live]
    rfl
  have only : ∀ r : IngressRow, (condition r && !ingressFrozen db (assign r)) = true →
      r.ingressId = row.ingressId := fun r both => named r (Bool.and_eq_true_iff.1 both).1
  obtain ⟨count, rows⟩ := @Table.update_rows_keyed _ _ _ _ db.ingress _ assign keeps _ _ only found
    selected
  refine ⟨{ db with ingress := db.ingress.update _ assign keeps }, ?_, _, rfl, rows⟩
  simp only [updateIngress]
  rw [List.findSome?_eq_none_iff.2 fun r _ => unfenced db rfl rfl r (assign r)]
  exact congrArg (fun changed => Except.ok (changed, _)) count

/-! ## Requests that no job stands for -/

/-- A stop can hold the request, or has held it. -/
structure Holdable (row : IngressRow) : Prop where
  unowned : row.ownerId = none
  object : (row.outcome.getD (.object [])).isObject = true
  previous : ∀ previous, (row.outcome.getD (.object [])).get "stop_hold" = some previous →
    Unowned.previousMatches row previous = true

/-- The request as a stop leaves it -/
def heldAs (operation : String) (row : IngressRow) : IngressRow :=
  if ((row.outcome.getD (.object [])).get "stop_hold").isSome then row
  else Unowned.stopped operation row

def heldIn (operation : String) (keys : List String) (row : IngressRow) : IngressRow :=
  if row.ingressId ∈ keys then heldAs operation row else row

/-- What a stop leaves of every request that it holds -/
structure SameAsk (before after : IngressRow) : Prop where
  ingressId : after.ingressId = before.ingressId
  target : after.targetThreadId = before.targetThreadId
  unowned : before.unowned = true → after.unowned = true
  asks : after.asks = before.asks
  ownerId : after.ownerId = before.ownerId

theorem SameAsk.refl (row : IngressRow) : SameAsk row row := ⟨rfl, rfl, id, rfl, rfl⟩

theorem heldAs_same (operation : String) (row : IngressRow) : SameAsk row (heldAs operation row) := by
  rw [heldAs]
  split
  · exact .refl row
  · refine ⟨rfl, rfl, ?_, rfl, rfl⟩
    intro unowned
    rw [IngressRow.unowned, Bool.and_eq_true] at unowned
    exact Bool.and_eq_true_iff.2 ⟨unowned.1, rfl⟩

theorem heldIn_same (operation : String) (keys : List String) (row : IngressRow) :
    SameAsk row (heldIn operation keys row) := by
  rw [heldIn]
  split
  · exact heldAs_same operation row
  · exact .refl row

theorem unownedOne_accepts (unfenced : Unfenced hooks db) {original : IngressRow}
    (found : db.ingress.find original.ingressId = some original) (holdable : Holdable original)
    (live : db.archive.frozen .ingressJournal original.ingressId = false)
    (before : List IngressRow) :
    ∃ next, Unowned.holdOne hooks operation (before, db) original =
        .ok (before ++ [heldAs operation original], next) ∧
      Journalled (heldIn operation [original.ingressId]) db next := by
  have same : ∀ row ∈ db.ingress.rows, row.ingressId = original.ingressId → row = original :=
    fun row member named => Table.eq_of_key member (Table.mem_of_find found) named
  simp only [Unowned.holdOne, holdable.object, Bool.not_true, Bool.false_eq_true, if_false]
  cases had : (original.outcome.getD (.object [])).get "stop_hold" with
  | some previous =>
    have own : heldAs operation original = original := by rw [heldAs, had]; rfl
    refine ⟨db, ?_, db.ingress, rfl, ?_⟩
    · simp only [holdable.previous previous had, Bool.not_true, Bool.false_eq_true, if_false, own]
    · refine ((List.map_congr_left fun row member => ?_).trans (List.map_id _)).symm
      rw [heldIn]
      split
      · next listed => rw [same row member (List.mem_singleton.1 listed), own]; rfl
      · rfl
  | none =>
    have own : heldAs operation original = Unowned.stopped operation original := by
      rw [heldAs, had]
      rfl
    obtain ⟨next, ran, journal⟩ := @updateIngress_accepts _ hooks db unfenced
      (fun row => row.ingressId == original.ingressId && row.ownerId.isNone)
      (fun row => { row with
        state := .held
        holdReason := (Unowned.stopped operation original).holdReason
        outcome := some ((row.outcome.getD (.object [])).set "stop_hold"
          (Unowned.evidence operation original)) })
      (fun _ => rfl) original found
      (fun r chosen => beq_iff_eq.1 (Bool.and_eq_true_iff.1 chosen).1)
      (by simp [holdable.unowned]) live
    have after := journal.find (fun row => by split <;> rfl) original.ingressId
    rw [found, Option.map_some, if_pos rfl] at after
    refine ⟨next, ?_, ?_⟩
    · refine bind_ok.2 ⟨_, ran, ?_⟩
      rw [if_neg]
      · rw [own]
      · simp only [after, ne_eq, not_true_eq_false, Unowned.stopped, decide_false, Bool.or_self,
          Bool.false_eq_true, not_false_eq_true]
    · obtain ⟨ingress, rfl, rows⟩ := journal
      refine ⟨ingress, rfl, rows.trans (List.map_congr_left fun row member => ?_)⟩
      rw [heldIn]
      by_cases named : row.ingressId = original.ingressId
      · rw [if_pos named, if_pos (List.mem_singleton.2 named), same row member named, own]
        rfl
      · rw [if_neg named, if_neg fun listed => named (List.mem_singleton.1 listed)]

theorem unownedHold_accepts {originals : List IngressRow} (unfenced : Unfenced hooks db)
    (found : ∀ row ∈ originals, db.ingress.find row.ingressId = some row)
    (distinct : (originals.map (·.ingressId)).Nodup) (holdable : ∀ row ∈ originals, Holdable row)
    (live : ∀ key, db.archive.frozen .ingressJournal key = false) :
    ∃ next, Unowned.hold hooks operation db originals =
        .ok (originals.map (heldAs operation), next) ∧
      Journalled (heldIn operation (originals.map (·.ingressId))) db next := by
  suffices loop : ∀ before : List IngressRow, ∃ next,
      originals.foldlM (Unowned.holdOne hooks operation) (before, db) =
          .ok (before ++ originals.map (heldAs operation), next) ∧
        Journalled (heldIn operation (originals.map (·.ingressId))) db next from loop []
  induction originals generalizing db with
  | nil =>
    intro before
    refine ⟨db, by rw [List.map_nil, List.append_nil]; rfl, db.ingress, rfl, ?_⟩
    exact ((List.map_congr_left fun row _ => if_neg List.not_mem_nil).trans (List.map_id _)).symm
  | cons original originals ih =>
    intro before
    rw [List.map_cons, List.nodup_cons] at distinct
    obtain ⟨middle, ran, journal⟩ := @unownedOne_accepts _ hooks db operation unfenced original
      (found original (List.mem_cons_self ..)) (holdable original (List.mem_cons_self ..))
      (live original.ingressId) before
    -- the requests that are left were not changed
    have rest : ∀ row ∈ originals, middle.ingress.find row.ingressId = some row := by
      intro row member
      rw [journal.find fun row => (heldIn_same operation _ row).ingressId,
        found row (List.mem_cons_of_mem _ member), Option.map_some, heldIn, if_neg]
      intro same
      exact distinct.1 (List.mem_singleton.1 same ▸ List.mem_map_of_mem member)
    obtain ⟨ingress, rfl, rows⟩ := journal
    have still : Unfenced hooks { db with ingress := ingress } := unfenced
    obtain ⟨next, others, last, same, after⟩ := ih still rest distinct.2
      (fun row member => holdable row (List.mem_cons_of_mem _ member)) live
      (before ++ [heldAs operation original])
    refine ⟨next, ?_, last, same, ?_⟩
    · rw [List.foldlM_cons]
      refine bind_ok.2 ⟨_, ran, ?_⟩
      rw [others, List.append_assoc]
      rfl
    · rw [after]
      show List.map _ ingress.rows = _
      rw [rows, List.map_map]
      refine List.map_congr_left fun row _ => ?_
      simp only [Function.comp_apply, List.map_cons]
      by_cases named : row.ingressId = original.ingressId
      · have here : heldIn operation [original.ingressId] row = heldAs operation row :=
          if_pos (List.mem_singleton.2 named)
        rw [here, heldIn, (heldAs_same operation row).ingressId, named, if_neg distinct.1, heldIn,
          named, if_pos (List.mem_cons_self ..)]
      · have elsewhere : heldIn operation [original.ingressId] row = row :=
          if_neg fun listed => named (List.mem_singleton.1 listed)
        rw [elsewhere, heldIn, heldIn]
        simp only [List.mem_cons, named, false_or]

/-! ## The stop's own request -/

def acceptedRow (receipt : StopReceipt) (now : Rat) (row : IngressRow) : IngressRow :=
  { row with
    phase := "stop_accepted"
    updatedAt := now
    outcome := some (acceptedOutcome receipt) }

def acceptedIn (expected : Option IngressRow) (receipt : StopReceipt) (now : Rat)
    (row : IngressRow) : IngressRow :=
  if expected.map (·.ingressId) = some row.ingressId then acceptedRow receipt now row else row

theorem acceptedIn_same (expected : Option IngressRow) (receipt : StopReceipt) (now : Rat)
    (row : IngressRow) : SameAsk row (acceptedIn expected receipt now row) := by
  rw [acceptedIn]
  split
  · exact ⟨rfl, rfl, id, rfl, rfl⟩
  · exact .refl row

/-- The stop was begun and has no answer yet. -/
structure Executing (row : IngressRow) : Prop where
  state : row.state = .executing
  phase : row.phase = "processing"
  unowned : row.ownerId = none

theorem claimRecord_accepts {expected : Option IngressRow} (unfenced : Unfenced hooks db)
    (found : ∀ row, expected = some row → db.ingress.find row.ingressId = some row)
    (begun : ∀ row, expected = some row → Executing row)
    (live : ∀ key, db.archive.frozen .ingressJournal key = false) (receipt : StopReceipt)
    (now : Rat) :
    ∃ next, claimRecord hooks expected receipt now db =
        .ok (expected.map (acceptedRow receipt now), next) ∧
      Journalled (acceptedIn expected receipt now) db next := by
  cases expected with
  | none =>
    refine ⟨db, rfl, db.ingress, rfl, ?_⟩
    exact ((List.map_congr_left fun row _ => if_neg (by simp)).trans (List.map_id _)).symm
  | some own =>
    obtain ⟨state, phase, unowned⟩ := begun own rfl
    obtain ⟨next, ran, ingress, same, rows⟩ := @updateIngress_accepts _ hooks db unfenced
      (fun row => row.ingressId == own.ingressId && row.state == .executing &&
        row.phase == "processing" && row.ownerId.isNone) (acceptedRow receipt now) (fun _ => rfl)
      own (found own rfl)
      (fun r chosen => by
        simp only [Bool.and_eq_true, beq_iff_eq] at chosen
        exact chosen.1.1.1)
      (by simp [state, phase, unowned]) (live own.ingressId)
    refine ⟨next, bind_ok.2 ⟨_, ran, rfl⟩, ingress, same, rows.trans ?_⟩
    refine List.map_congr_left fun row _ => ?_
    rw [acceptedIn, Option.map_some]
    simp only [Option.some.injEq, eq_comm]

end CodexRemote.Verified.StopAcceptance

import CodexRemote.Verified.PromptIntake.Moves
import CodexRemote.Verified.StopAcceptance.Accepts

/-! # What the operations leave of the journal

Every operation keeps the requests of the journal as a stop wants them, and a message whose stop was
accepted does not become one that a stop may accept again.
-/

namespace CodexRemote.Verified.StopAcceptance

open Foundations Store Store.Stop

variable {ρ σ : Type}

/-! ## The journal -/

/-- A request for a turn without a job is sound. -/
def Sound (row : IngressRow) : Prop := row.asks = true → row.unowned = true → SoundAsk row

/-- Sound requests stay sound, and a stop that was accepted is not accepted again. -/
structure JournalKept (db next : QueueDb ρ) : Prop where
  sound : (∀ row ∈ db.ingress.rows, Sound row) → ∀ row ∈ next.ingress.rows, Sound row
  spent : ∀ key row, db.ingress.find key = some row → Spent row →
    ∃ after, next.ingress.find key = some after ∧ Spent after

theorem JournalKept.of_same {db next : QueueDb ρ} (same : next.ingress = db.ingress) :
    JournalKept db next where
  sound all row member := all row (same ▸ member)
  spent key row found past := ⟨row, by rw [same, found], past⟩

theorem JournalKept.refl (db : QueueDb ρ) : JournalKept db db := .of_same rfl

theorem JournalKept.trans {a b c : QueueDb ρ} (left : JournalKept a b) (right : JournalKept b c) :
    JournalKept a c where
  sound all := right.sound (left.sound all)
  spent key row found past := by
    obtain ⟨middle, there, past⟩ := left.spent key row found past
    exact right.spent key middle there past

/-- Only the journal is written, and it is kept. -/
structure JournalWrite (db next : QueueDb ρ) : Prop where
  only : ∃ ingress, next = { db with ingress := ingress }
  kept : JournalKept db next

theorem JournalWrite.refl (db : QueueDb ρ) : JournalWrite db db := ⟨⟨db.ingress, rfl⟩, .refl db⟩

theorem JournalWrite.trans {a b c : QueueDb ρ} (left : JournalWrite a b) (right : JournalWrite b c) :
    JournalWrite a c := by
  obtain ⟨⟨_, rfl⟩, first⟩ := left
  obtain ⟨⟨ingress, rfl⟩, second⟩ := right
  exact ⟨⟨ingress, rfl⟩, first.trans second⟩

/-- An update of the journal keeps it when it keeps each row that it changes. -/
theorem JournalWrite.of_update {hooks : QueueHooks ρ} {db next : QueueDb ρ}
    {condition : IngressRow → Bool} {assign : IngressRow → IngressRow}
    {keeps : ∀ r, (assign r).ingressId = r.ingressId} {changed : Nat}
    (result : updateIngress hooks db condition assign keeps = .ok (changed, next))
    (each : ∀ row, condition row = true →
      next.ingress.find row.ingressId = some (assign row) → (Sound row → Sound (assign row)) ∧
        (Spent row → Spent (assign row))) :
    JournalWrite db next := by
  obtain ⟨selected, chosen, rfl⟩ := Queue.updateIngress_ok result
  have written : ∀ row ∈ db.ingress.rows, selected row = true →
      (db.ingress.update selected assign keeps).find row.ingressId = some (assign row) := by
    intro row member picked
    rw [Table.find_update, Table.find_of_mem member, Option.map_some, if_pos picked]
  refine ⟨⟨_, rfl⟩, ?_, ?_⟩
  · intro all row member
    obtain ⟨before, there, rfl⟩ := List.mem_map.1 member
    split
    · next picked =>
      exact (each before (chosen before picked) (written before there picked)).1 (all before there)
    · exact all before there
  · intro key row found past
    refine ⟨if selected row then assign row else row, ?_, ?_⟩
    · show (db.ingress.update selected assign keeps).find key = _
      rw [Table.find_update, found]
      rfl
    · split
      · next picked =>
        exact (each row (chosen row picked)
          (written row (Table.mem_of_find found) picked)).2 past
      · exact past

variable {key : String} {row : IngressRow} {now : Rat}

/-- A field of its own does not touch what stops read of a request. -/
theorem sound_outcome (field : Json) (other : "stop_hold" ≠ key) (sound : Sound row) :
    Sound { row with outcome := some ((row.outcome.getD (.object [])).set key field) } := by
  intro asks unowned
  obtain ⟨event, kind, owner, object, previous⟩ := sound asks unowned
  refine ⟨event, kind, owner, ?_, ?_⟩
  · show ((row.outcome.getD (.object [])).set key field).isObject = true
    cases value : row.outcome.getD (.object []) with
    | object fields => rfl
    | _ =>
      rw [value] at object
      cases object
  · intro old found
    have found : ((row.outcome.getD (.object [])).set key field).get "stop_hold" = some old := found
    rw [Json.get_set_ne other] at found
    exact previous old found

/-- A request that was not held yet can be taken on. -/
theorem sound_begun {after : IngressRow} (sound : Sound row) (asks : after.asks = row.asks)
    (early : row.state = .staged ∨ row.state = .acknowledged) (event : after.eventId = row.eventId)
    (kind : after.ownerKind = row.ownerKind) (owner : after.ownerId = row.ownerId)
    (outcome : after.outcome = row.outcome) : Sound after := by
  intro asked unowned
  have before : row.unowned = true := by
    rw [IngressRow.unowned, Bool.and_eq_true] at unowned ⊢
    refine ⟨owner ▸ unowned.1, ?_⟩
    obtain state | state := early <;> rw [state] <;> rfl
  obtain ⟨positive, none_, unowned, object, previous⟩ := sound (asks ▸ asked) before
  refine ⟨event ▸ positive, kind ▸ none_, owner ▸ unowned, outcome ▸ object, ?_⟩
  intro old found
  rw [outcome] at found
  -- only a held request has a hold
  have matched := previous old found
  simp only [Unowned.previousMatches, Bool.and_eq_true, decide_eq_true_eq] at matched
  obtain state | state := early
  · cases state.symm.trans matched.1.1.1.1.1.1
  · cases state.symm.trans matched.1.1.1.1.1.1

theorem Spent.of_same {before after : IngressRow} (spent : Spent before)
    (state : after.state = before.state) (phase : after.phase = before.phase) : Spent after :=
  ⟨state ▸ spent.staged, state ▸ spent.acknowledged, by rw [state, phase]; exact spent.processing⟩

/-! ## The life of a request -/

section Lifecycle

variable {hooks : QueueHooks ρ} {db next : QueueDb ρ}

theorem JournalWrite.of_commit {α : Type} {body : QueueDb ρ → Except StoreError (α × QueueDb ρ)}
    {answer : Except StoreError α} (call : commit body db = (answer, next))
    (kept : ∀ a, body db = .ok (a, next) → JournalWrite db next) : JournalWrite db next := by
  cases answer with
  | error e =>
    rw [commit_error call]
    exact .refl db
  | ok a => exact kept a (commit_ok call)

theorem acknowledge_journal {answer : Except StoreError Bool}
    (call : Ingress.acknowledge hooks key now db = (answer, next)) : JournalWrite db next := by
  refine .of_commit call fun a result => ?_
  obtain ⟨⟨changed, written⟩, update, result⟩ := bind_ok.1 result
  cases result
  refine .of_update update fun row chosen _ => ?_
  simp only [Bool.and_eq_true, beq_iff_eq] at chosen
  refine ⟨fun sound => sound_begun sound rfl (.inl chosen.2) rfl rfl rfl rfl, fun spent => ?_⟩
  exact absurd chosen.2 spent.staged

theorem executeRow_journal {phase : String} {target : Option String} {answer : Bool}
    (result : Ingress.executeRow hooks key phase target now db = .ok (answer, next)) :
    JournalWrite db next := by
  obtain ⟨⟨changed, written⟩, update, result⟩ := bind_ok.1 result
  cases result
  refine .of_update update fun row chosen _ => ?_
  simp only [Bool.and_eq_true, Bool.or_eq_true, beq_iff_eq] at chosen
  refine ⟨fun sound => sound_begun sound rfl chosen.2 rfl rfl rfl rfl, fun spent => ?_⟩
  obtain staged | acknowledged := chosen.2
  · exact absurd staged spent.staged
  · exact absurd acknowledged spent.acknowledged

theorem beginExecution_journal {phase : String} {target : Option String}
    {answer : Except StoreError Bool}
    (call : Ingress.beginExecution hooks key phase target now db = (answer, next)) :
    JournalWrite db next := by
  refine .of_commit call fun a result => ?_
  simp only [Ingress.beginExecutionIn] at result
  split at result
  · exact executeRow_journal result
  · obtain ⟨_, result⟩ | ⟨_, result⟩ := ite_ok.1 result
    · cases result
      exact .refl db
    · obtain ⟨_, _, result⟩ := bind_ok.1 result
      exact executeRow_journal result

theorem recordNewEvidence_journal {job : NewQueueJob}
    (result : recordNewEvidence hooks db job = .ok next) : JournalKept db next := by
  refine foldlM_ok (R := JournalKept) .refl .trans (fun state key after step => ?_) result
  simp only [recordEvidenceOf] at step
  split at step
  · cases step
  · obtain ⟨_, step⟩ | ⟨_, step⟩ := ite_ok.1 step
    · cases step
      exact .refl _
    · obtain ⟨_, step⟩ := guard_ok.1 step
      obtain ⟨rest, _, step⟩ := bind_ok.1 step
      obtain ⟨_, step⟩ := guard_ok.1 step
      obtain ⟨⟨changed, written⟩, update, step⟩ := bind_ok.1 step
      cases step
      refine (JournalKept.of_same rfl : JournalKept state { state with rest := rest }).trans
        (JournalWrite.of_update update fun row _ _ =>
          ⟨sound_outcome _ (by decide), fun spent => ?_⟩).kept
      exact spent.of_same rfl rfl

theorem linkPromptOwner_journal {intake : PromptIntake}
    (result : linkPromptOwner hooks db intake = .ok next) : JournalWrite db next := by
  simp only [linkPromptOwner] at result
  split at result
  · cases result
    exact .refl db
  · obtain ⟨origin, _, result⟩ := bind_ok.1 result
    cases origin with
    | none =>
      cases result
      exact .refl db
    | some ingress =>
      obtain ⟨_, _, result⟩ := bind_ok.1 result
      obtain ⟨_, _, result⟩ := bind_ok.1 result
      obtain ⟨_, result⟩ := guard_ok.1 result
      obtain ⟨⟨changed, after⟩, update, result⟩ := bind_ok.1 result
      cases result
      refine .of_update update fun row _ _ => ⟨fun _ _ unowned => ?_, fun _ => ?_⟩
      · -- the request has an owner now
        cases unowned
      · exact ⟨nofun, nofun, nofun⟩

end Lifecycle

/-! ## Admissions -/

section Admissions

variable {hooks : AdmissionHooks (StopTables σ)} {db next : StopDb σ}

theorem consumeArm_journal {request : NewIngress}
    (result : Ingress.consumeArm hooks request db key = .ok next) : JournalWrite db next := by
  obtain ⟨⟨changed, written⟩, update, result⟩ := bind_ok.1 result
  cases result
  refine .of_update update fun row _ _ => ⟨fun sound asks unowned => ?_, fun spent => ?_⟩
  · -- the arm is no part of what the request asks for
    have asks := (Verified.Ingress.asks_set row _ (by decide) (by decide) (by decide)).symm.trans asks
    obtain ⟨event, kind, owner, object, previous⟩ := sound asks unowned
    exact ⟨event, kind, owner, object, previous⟩
  · exact spent.of_same rfl rfl

/-- A new row that was not held by a stop is sound. -/
theorem sound_new (event : row.asks = true → ∃ e, row.eventId = some e ∧ 0 < e)
    (kind : row.ownerKind = none) (owner : row.ownerId = none) (unwritten : row.outcome = none) :
    Sound row := by
  intro asks _
  refine ⟨event asks, kind, owner, ?_, ?_⟩
  · rw [unwritten]
    rfl
  · intro previous found
    rw [unwritten] at found
    cases found

theorem insertRow_journal {inserted : IngressRow}
    (event : row.asks = true → ∃ e, row.eventId = some e ∧ 0 < e) (kind : row.ownerKind = none)
    (owner : row.ownerId = none) (unwritten : row.outcome = none)
    (result : Ingress.insertRow hooks db row = .ok (inserted, next)) :
    (∃ archive ingress, next = { db with archive := archive, ingress := ingress } ∧
      archive.dispositions = db.archive.dispositions) ∧ JournalKept db next := by
  simp only [Ingress.insertRow] at result
  obtain ⟨_, result⟩ | ⟨_, result⟩ := ite_ok.1 result
  · cases result
  obtain ⟨_, result⟩ | ⟨_, result⟩ := ite_ok.1 result
  · cases result
  split at result
  · cases result
  · next ingress added =>
    cases result
    obtain ⟨rows, free⟩ := Table.insert_some added
    refine ⟨⟨_, _, rfl, rfl⟩, ?_, ?_⟩
    · intro all other member
      have member : other ∈ ingress.rows := member
      rw [rows] at member
      obtain old | new := List.mem_append.1 member
      · exact all other old
      · rw [List.mem_singleton.1 new]
        cases hooks.fence db row with
        | none => exact sound_new event kind owner unwritten
        | some held => exact sound_new event kind owner unwritten
    · intro key other found spent
      refine ⟨other, ?_, spent⟩
      show ingress.find key = some other
      rw [Table.find_append rows, if_neg, found]
      intro same
      exact free (same ▸ Table.find_key found ▸ List.mem_map_of_mem (Table.mem_of_find found))

/-- Without an archived room nothing is retired. -/
theorem retireBlocked_open (open_ : db.archive.dispositions = [])
    (result : Ingress.retireBlocked hooks db row = .ok next) : next = db := by
  rw [Ingress.retireBlocked, if_neg] at result
  · cases result
    rfl
  · simp [Archive.blocked, open_]

theorem validate_asks {request : NewIngress} (valid : Ingress.validate request = .ok ()) :
    request.kind ≠ .action → ∃ event, request.eventId = some event ∧ 0 < event := by
  intro kind
  rw [Ingress.validate] at valid
  obtain ⟨fine, _⟩ := guard_ok.1 valid
  simp only [Bool.or_eq_true, not_or, Bool.and_eq_true, decide_eq_true_eq, not_and,
    Option.any_eq_true, not_exists] at fine
  obtain ⟨⟨⟨_, positive⟩, named⟩, _⟩ := fine
  cases event : request.eventId with
  | none =>
    rw [event] at named
    exact absurd rfl (named kind)
  | some event' =>
    refine ⟨event', rfl, ?_⟩
    have := positive event' event
    omega

end Admissions

/-! ## Stops -/

section Stops

variable {hooks : StopHooks σ} {db next : StopDb σ}

/-- A stop finds its own hold again. -/
theorem previousMatches_stopped (operation : String) (row : IngressRow) :
    Unowned.previousMatches (Unowned.stopped operation row) (Unowned.evidence operation row) =
      true := by
  cases target : row.targetThreadId with
  | none | some =>
    cases event : row.eventId with
    | none | some =>
      simp [Unowned.previousMatches, Unowned.stopped, Unowned.evidence, Json.get, Json.ofText,
        Json.ofInteger, Json.asText, Json.asInteger, target, event]

theorem sound_stopped (operation : String) (sound : SoundAsk row) :
    Sound (Unowned.stopped operation row) := by
  intro _ _
  obtain ⟨event, kind, owner, object, _⟩ := sound
  have had : (row.outcome.getD (.object [])).set "stop_hold" (Unowned.evidence operation row) =
      (Unowned.stopped operation row).outcome.getD (.object []) := rfl
  refine ⟨event, kind, owner, ?_, ?_⟩
  · rw [← had]
    cases value : row.outcome.getD (.object []) with
    | object fields => rfl
    | _ =>
      rw [value] at object
      cases object
  · intro previous found
    rw [← had, Json.get_set object] at found
    cases found
    exact previousMatches_stopped operation row

theorem unownedOne_journal {operation : String} {state after : List IngressRow × StopDb σ}
    {original : IngressRow} (sound : SoundAsk original)
    (result : Unowned.holdOne hooks operation state original = .ok after) :
    JournalWrite state.2 after.2 := by
  obtain ⟨held, db⟩ := state
  simp only [Unowned.holdOne] at result
  obtain ⟨_, result⟩ | ⟨_, result⟩ := ite_ok.1 result
  · cases result
  split at result
  · obtain ⟨_, result⟩ := guard_ok.1 result
    cases result
    exact .refl db
  · obtain ⟨⟨changed, written⟩, update, result⟩ := bind_ok.1 result
    obtain ⟨read, result⟩ := guard_ok.1 result
    cases result
    refine .of_update update fun row chosen there => ⟨fun _ => ?_, fun _ => ?spent⟩
    case spent => constructor <;> simp
    -- the row that was written is the one that the stop wanted
    simp only [Bool.or_eq_true, decide_eq_true_eq, not_or, ne_eq, Decidable.not_not] at read
    simp only [Bool.and_eq_true, beq_iff_eq] at chosen
    have same := read.2
    rw [← chosen.1, there] at same
    rw [Option.some.inj same]
    exact sound_stopped operation sound

theorem unownedHold_journal {operation : String} {originals held : List IngressRow}
    (sound : ∀ row ∈ originals, SoundAsk row)
    (result : Unowned.hold hooks operation db originals = .ok (held, next)) :
    JournalWrite db next := by
  refine foldlM_keeps (P := fun state : List IngressRow × StopDb σ => JournalWrite db state.2)
    ?_ (.refl db) result
  intro original member state after kept step
  exact kept.trans (unownedOne_journal (sound original member) step)

theorem claimRecord_journal {expected claimed : Option IngressRow} {receipt : StopReceipt}
    (result : claimRecord hooks expected receipt now db = .ok (claimed, next)) :
    JournalWrite db next ∧ claimed = expected.map (acceptedRow receipt now) := by
  cases expected with
  | none =>
    cases result
    exact ⟨.refl db, rfl⟩
  | some expected =>
    simp only [claimRecord] at result
    obtain ⟨⟨changed, after⟩, update, result⟩ := bind_ok.1 result
    obtain ⟨_, result⟩ := guard_ok.1 result
    cases result
    refine ⟨.of_update update fun row chosen _ => ⟨fun sound asks unowned => ?_, fun _ => ?_⟩, rfl⟩
    · obtain ⟨event, kind, owner, _, _⟩ := sound asks unowned
      refine ⟨event, kind, owner, rfl, fun previous found => ?_⟩
      have none_ := @Verified.Ingress.acceptedOutcome_get receipt "stop_hold" (by decide)
      cases none_.symm.trans found
    · simp only [Bool.and_eq_true, beq_iff_eq] at chosen
      have state := chosen.1.1.2
      refine ⟨?_, ?_, ?_⟩
      · rw [state]
        rintro ⟨⟩
      · rw [state]
        rintro ⟨⟩
      · have other : "stop_accepted" ≠ "processing" := by decide
        exact fun still => other still.2

end Stops

end CodexRemote.Verified.StopAcceptance

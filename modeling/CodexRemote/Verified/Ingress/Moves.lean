import Mathlib.Logic.Relation
import CodexRemote.Verified.Ingress.Rows
import CodexRemote.Verified.Stop.Acceptance

/-! # Moves of the journal

Every operation on requests moves each row of the journal by the moves of one request.  Only an
admission that answers a new request adds a row.
-/

namespace CodexRemote.Verified.Ingress

open Foundations Store Store.Ingress

abbrev RowMoves : IngressRow → IngressRow → Prop := Relation.ReflTransGen RowMove

theorem RowMoves.same {before after : IngressRow} (moves : RowMoves before after) :
    SameRequest before after := by
  induction moves with
  | refl => exact .refl before
  | tail _ last ih => exact ih.trans last.same

theorem RowMoves.sound {before after : IngressRow} (moves : RowMoves before after)
    (sound : SoundRow before) : SoundRow after := by
  induction moves with
  | refl => exact sound
  | tail _ last ih => exact last.sound ih

theorem RowMoves.forward {before after : IngressRow} (moves : RowMoves before after)
    (sound : SoundRow before) : Forward before after := by
  induction moves with
  | refl => exact .refl before
  | tail earlier last ih => exact ih.trans (last.forward (RowMoves.sound earlier sound))

/-! ## Journals -/

variable {ρ : Type}

/-- Every request of the journal moves on, and there is no other. -/
structure JournalMove (db next : QueueDb ρ) : Prop where
  moves : ∀ key row, db.ingress.find key = some row →
    ∃ after, next.ingress.find key = some after ∧ RowMoves row after
  closed : ∀ key, db.ingress.find key = none → next.ingress.find key = none

theorem JournalMove.of_same {db next : QueueDb ρ} (same : next.ingress = db.ingress) :
    JournalMove db next where
  moves key row found := ⟨row, by rw [same, found], .refl⟩
  closed key free := by rw [same, free]

theorem JournalMove.refl (db : QueueDb ρ) : JournalMove db db := .of_same rfl

theorem JournalMove.trans {a b c : QueueDb ρ} (left : JournalMove a b) (right : JournalMove b c) :
    JournalMove a c where
  moves key row found := by
    obtain ⟨middle, there, first⟩ := left.moves key row found
    obtain ⟨last, here, second⟩ := right.moves key middle there
    exact ⟨last, here, first.trans second⟩
  closed key free := right.closed key (left.closed key free)

/-- An update whose every change is a move -/
theorem JournalMove.of_update {hooks : QueueHooks ρ} {db next : QueueDb ρ}
    {condition : IngressRow → Bool} {assign : IngressRow → IngressRow}
    {keeps : ∀ r, (assign r).ingressId = r.ingressId} {changed : Nat}
    (result : updateIngress hooks db condition assign keeps = .ok (changed, next))
    (each : ∀ row, db.ingress.find row.ingressId = some row → condition row = true →
      next.ingress.find row.ingressId = some (assign row) → RowMove row (assign row)) :
    JournalMove db next := by
  obtain ⟨selected, chosen, rfl⟩ := Queue.updateIngress_ok result
  constructor
  · intro key row found
    have after : (db.ingress.update selected assign keeps).find key =
        some (if selected row then assign row else row) := by rw [Table.find_update, found]; rfl
    refine ⟨_, after, ?_⟩
    cases here : selected row with
    | false => exact .refl
    | true =>
      have named : row.ingressId = key := Table.find_key found
      subst named
      refine .single (each row found (chosen row here) ?_)
      show (db.ingress.update selected assign keeps).find row.ingressId = _
      rw [after, here, if_pos rfl]
  · intro key free
    show (db.ingress.update selected assign keeps).find key = none
    rw [Table.find_update, free]
    rfl

theorem JournalMove.of_rest {db : QueueDb ρ} (rest : ρ) : JournalMove db { db with rest := rest } :=
  .of_same rfl

/-- A transaction that fails moves nothing. -/
theorem JournalMove.of_commit {α : Type} {body : QueueDb ρ → Except StoreError (α × QueueDb ρ)}
    {db next : QueueDb ρ} {answer : Except StoreError α} (call : commit body db = (answer, next))
    (moves : ∀ a, body db = .ok (a, next) → JournalMove db next) : JournalMove db next := by
  cases answer with
  | error e =>
    rw [commit_error call]
    exact .refl db
  | ok a => exact moves a (commit_ok call)

/-! ## The life of a request -/

variable {generation : Int} {answer : Except StoreError Unit}

section Lifecycle

variable {hooks : QueueHooks ρ} {key : String} {now : Rat} {db next : QueueDb ρ}

theorem acknowledge_moves {answer : Except StoreError Bool}
    (call : acknowledge hooks key now db = (answer, next)) : JournalMove db next := by
  refine .of_commit call fun a result => ?_
  obtain ⟨⟨changed, written⟩, update, result⟩ := bind_ok.1 result
  cases result
  refine .of_update update fun row _ chosen _ => .acknowledged now ?_
  simp only [Bool.and_eq_true, beq_iff_eq] at chosen
  exact chosen.2

theorem beginConfirmation_moves {answer : Except StoreError Bool}
    (call : beginConfirmation hooks key now db = (answer, next)) : JournalMove db next := by
  refine .of_commit call fun a result => ?_
  obtain ⟨⟨changed, written⟩, update, result⟩ := bind_ok.1 result
  cases result
  refine .of_update update fun row _ chosen _ => .confirming now ?_
  simp only [Bool.and_eq_true, beq_iff_eq] at chosen
  exact chosen.1.2

theorem executeRow_moves {phase : String} {target : Option String} {answer : Bool}
    (result : executeRow hooks key phase target now db = .ok (answer, next)) :
    JournalMove db next := by
  obtain ⟨⟨changed, written⟩, update, result⟩ := bind_ok.1 result
  cases result
  refine .of_update update fun row _ chosen _ => .executing phase _ now ?_
  simp only [Bool.and_eq_true, Bool.or_eq_true, beq_iff_eq] at chosen
  exact chosen.2

theorem beginExecution_moves {phase : String} {target : Option String}
    {answer : Except StoreError Bool}
    (call : beginExecution hooks key phase target now db = (answer, next)) :
    JournalMove db next := by
  refine .of_commit call fun a result => ?_
  simp only [beginExecutionIn] at result
  cases found : db.ingress.find key with
  | none =>
    rw [found] at result
    exact executeRow_moves result
  | some record =>
    rw [found] at result
    obtain ⟨_, result⟩ | ⟨_, result⟩ := ite_ok.1 result
    · cases result
      exact .refl db
    · obtain ⟨_, _, result⟩ := bind_ok.1 result
      exact executeRow_moves result

theorem newExecutionPrompt_some {digests : IngressDigests} {row : IngressRow}
    {prompt : Option String} (result : newExecutionPrompt digests row = .ok prompt)
    (isSome : ¬ prompt.isNone = true) : row.newCommandPrompt.isSome := by
  cases raw : row.newCommandPrompt with
  | none =>
    rw [newExecutionPrompt, raw] at result
    cases result
    exact absurd rfl isSome
  | some raw => rfl

theorem startThread_moves {answer : Bool}
    (prompt : ∀ row, db.ingress.find key = some row → row.newCommandPrompt.isSome)
    (result : startThread hooks key generation now db = .ok (answer, next)) :
    JournalMove db next := by
  obtain ⟨⟨changed, written⟩, update, result⟩ := bind_ok.1 result
  cases result
  refine .of_update update fun row found chosen _ => .starting generation now ?_ ?_
  · simp only [Bool.and_eq_true, Bool.or_eq_true, beq_iff_eq] at chosen
    obtain (staged | acknowledged) | executing := chosen.2
    · exact .inl staged
    · exact .inr (.inl acknowledged)
    · exact .inr (.inr executing)
  · simp only [Bool.and_eq_true, beq_iff_eq] at chosen
    exact prompt row (chosen.1 ▸ found)

theorem beginThreadStart_moves {digests : IngressDigests} {answer : Except StoreError Bool}
    (call : beginThreadStart hooks digests key generation now db = (answer, next)) :
    JournalMove db next := by
  refine .of_commit call fun a result => ?_
  simp only [beginThreadStartIn] at result
  obtain ⟨_, result⟩ := guard_ok.1 result
  cases found : db.ingress.find key with
  | none =>
    rw [found] at result
    refine startThread_moves (fun row there => ?_) result
    rw [found] at there
    cases there
  | some record =>
    rw [found] at result
    obtain ⟨_, result⟩ | ⟨_, result⟩ := ite_ok.1 result
    · cases result
      exact .refl db
    · obtain ⟨prompt, executed, result⟩ := bind_ok.1 result
      obtain ⟨isSome, result⟩ := guard_ok.1 result
      refine startThread_moves (fun row there => ?_) result
      rw [found] at there
      cases there
      exact newExecutionPrompt_some executed isSome

theorem recordCreatedThread_moves {target : String}
    (call : recordCreatedThread hooks key generation target now db = (answer, next)) :
    JournalMove db next := by
  refine .of_commit call fun a result => ?_
  simp only [recordCreatedThreadIn] at result
  obtain ⟨_, result⟩ := guard_ok.1 result
  obtain ⟨⟨changed, written⟩, update, result⟩ := bind_ok.1 result
  obtain ⟨_, result⟩ := guard_ok.1 result
  cases result
  refine .of_update update fun row _ chosen _ => .created target now ?_
  simp only [Bool.and_eq_true, beq_iff_eq] at chosen
  exact chosen.1.2

theorem recordResult_moves {outcome : Json}
    (call : recordResult hooks key outcome now db = (answer, next)) : JournalMove db next := by
  refine .of_commit call fun a result => ?_
  simp only [recordResultIn] at result
  cases found : db.ingress.find key with
  | none =>
    rw [found] at result
    cases result
  | some record =>
    rw [found] at result
    obtain ⟨_, result⟩ := guard_ok.1 result
    obtain ⟨kept, keeps, result⟩ := bind_ok.1 result
    obtain ⟨⟨changed, written⟩, update, result⟩ := bind_ok.1 result
    obtain ⟨_, result⟩ := guard_ok.1 result
    cases result
    refine .of_update update fun row there chosen _ => ?_
    simp only [Bool.and_eq_true, beq_iff_eq, bne_iff_ne] at chosen
    rw [chosen.1, found] at there
    cases there
    exact .finished outcome kept now chosen.2 keeps

theorem confirm_moves {reply : QueueDb ρ → String → Except StoreError (Option (Bool × IngressKind))}
    (call : confirm hooks reply key now db = (answer, next)) :
    JournalMove db next := by
  refine .of_commit call fun a result => ?_
  simp only [Store.Ingress.confirmIn] at result
  obtain ⟨record, _, result⟩ := bind_ok.1 result
  obtain ⟨_, result⟩ := guard_ok.1 result
  obtain ⟨⟨changed, written⟩, update, result⟩ := bind_ok.1 result
  obtain ⟨_, result⟩ := guard_ok.1 result
  cases result
  exact .of_update update fun row _ _ _ => .confirmed now

theorem recordProcessingMode_moves {mode : String}
    (call : recordProcessingMode hooks key mode db = (answer, next)) : JournalMove db next := by
  refine .of_commit call fun a result => ?_
  simp only [recordProcessingModeIn] at result
  cases found : db.ingress.find key with
  | none =>
    rw [found] at result
    cases result
  | some record =>
    rw [found] at result
    obtain ⟨_, result⟩ := guard_ok.1 result
    obtain ⟨⟨changed, written⟩, update, result⟩ := bind_ok.1 result
    cases result
    refine .of_update update fun row there chosen _ => ?_
    rw [beq_iff_eq.1 chosen, found] at there
    cases there
    exact .modeSet (.text mode)

theorem recordNewInput_moves {digests : IngressDigests} {raw prompt : String} {time : Timestamp}
    (call : recordNewInput hooks digests key raw prompt time db = (answer, next)) :
    JournalMove db next := by
  refine .of_commit call fun a result => ?_
  simp only [recordNewInputIn] at result
  obtain ⟨_, result⟩ := guard_ok.1 result
  cases found : db.ingress.find key with
  | none =>
    rw [found] at result
    cases result
  | some record =>
    rw [found] at result
    obtain ⟨own, result⟩ := guard_ok.1 result
    split at result
    · obtain ⟨_, result⟩ := guard_ok.1 result
      cases result
      exact .refl db
    · next unwritten =>
      obtain ⟨begun, result⟩ := guard_ok.1 result
      obtain ⟨⟨changed, written⟩, update, result⟩ := bind_ok.1 result
      cases result
      simp only [Bool.or_eq_true, decide_eq_true_eq, not_or, ne_eq,
        Decidable.not_not] at own begun
      refine .of_update update fun row there chosen _ => ?_
      rw [beq_iff_eq.1 chosen, found] at there
      cases there
      exact .prepared _ _ begun.1 begun.2 (by rw [own.1]; rfl) unwritten

theorem recordNewCreation_moves {origin : QueueDb ρ → Int → Except StoreError Json}
    {channel : Int} {cwd : Option String}
    (call : recordNewCreation hooks origin key generation cwd channel now db = (answer, next)) :
    JournalMove db next := by
  refine .of_commit call fun a result => ?_
  simp only [recordNewCreationIn] at result
  obtain ⟨_, result⟩ := guard_ok.1 result
  cases found : db.ingress.find key with
  | none =>
    rw [found] at result
    cases result
  | some record =>
    rw [found] at result
    obtain ⟨mapped, _, result⟩ := bind_ok.1 result
    obtain ⟨_, result⟩ := guard_ok.1 result
    obtain ⟨⟨changed, written⟩, update, result⟩ := bind_ok.1 result
    obtain ⟨_, result⟩ := guard_ok.1 result
    cases result
    refine .of_update update fun row _ chosen _ => ?_
    simp only [Bool.and_eq_true, beq_iff_eq, Option.isNone_iff_eq_none] at chosen
    exact .context _ generation now chosen.1.1.1.1.2 chosen.1.1.1.2 chosen.1.1.2 chosen.1.2

theorem recordEvidenceOf_moves {job : NewQueueJob}
    (owned : ∀ row, db.ingress.find key = some row → row.ownerId.isSome)
    (result : recordEvidenceOf hooks job db key = .ok next) : JournalMove db next := by
  simp only [recordEvidenceOf] at result
  cases found : db.ingress.find key with
  | none =>
    rw [found] at result
    cases result
  | some record =>
    rw [found] at result
    obtain ⟨_, result⟩ | ⟨isNew, result⟩ := ite_ok.1 result
    · cases result
      exact .refl db
    · obtain ⟨_, result⟩ := guard_ok.1 result
      obtain ⟨rest, _, result⟩ := bind_ok.1 result
      obtain ⟨agrees, result⟩ := guard_ok.1 result
      obtain ⟨⟨changed, written⟩, update, result⟩ := bind_ok.1 result
      cases result
      refine (JournalMove.of_rest rest).trans (.of_update update fun row there chosen _ => ?_)
      have there : db.ingress.find row.ingressId = some row := there
      rw [beq_iff_eq.1 chosen, found] at there
      cases there
      refine .verified (newEvidence hooks job) (owned record found) ?_ ?_
      · rwa [Bool.not_eq_true, Option.isNone_eq_false_iff] at isNew
      · intro old before
        rw [saved] at before
        rw [before] at agrees
        simp only [Option.any_some, Bool.not_eq_true, Bool.not_eq_false'] at agrees
        exact Json.eq_of_same _ _ agrees

theorem recordNewEvidence_moves {job : NewQueueJob}
    (result : recordNewEvidence hooks db job = .ok next) : JournalMove db next := by
  refine foldlM_keeps (P := JournalMove db) ?_ (.refl db) result
  intro key listed state after moved step
  refine moved.trans (recordEvidenceOf_moves (fun row found => ?_) step)
  obtain ⟨first, member, named⟩ := List.mem_map.1 listed
  obtain ⟨there, chosen⟩ := List.mem_filter.1 member
  obtain ⟨later, here, moves⟩ := moved.moves key first (named ▸ Table.find_of_mem there)
  rw [found] at here
  cases here
  simp only [Bool.and_eq_true, beq_iff_eq] at chosen
  rw [moves.same.ownerId, chosen.2]
  rfl

end Lifecycle

/-! ## Acceptance of a stop -/

section Acceptance

variable {σ : Type}

variable {hooks : StopHooks σ} {db next : StopDb σ}

/-- A request for a turn that a stop holds was one before. -/
theorem unownedOne_moves {operation : String}
    {state next : List IngressRow × StopDb σ} {original : IngressRow} (asks : original.asks = true)
    (result : Store.Stop.Unowned.holdOne hooks operation state original = .ok next) :
    JournalMove state.2 next.2 := by
  obtain ⟨held, db⟩ := state
  simp only [Store.Stop.Unowned.holdOne] at result
  obtain ⟨object, result⟩ := guard_ok.1 result
  split at result
  · obtain ⟨_, result⟩ := guard_ok.1 result
    cases result
    exact .refl db
  · obtain ⟨⟨changed, after⟩, update, result⟩ := bind_ok.1 result
    obtain ⟨same, result⟩ := guard_ok.1 result
    cases result
    simp only [Bool.or_eq_true, decide_eq_true_eq, not_or, ne_eq, Decidable.not_not] at same
    refine .of_update update fun row _ chosen written => ?_
    simp only [Bool.and_eq_true, beq_iff_eq] at chosen
    rw [chosen.1, same.2] at written
    have wanted := Option.some.inj written
    refine .stopped _ _ ?_ ?_
    · -- the payload and the kind are those of the original
      exact (congrArg IngressRow.asks wanted).symm.trans asks
    · have outcome : (original.outcome.getD (.object [])).set "stop_hold" _ =
          (row.outcome.getD (.object [])).set "stop_hold" _ :=
        Option.some.inj (congrArg IngressRow.outcome wanted)
      cases value : row.outcome.getD (.object []) with
      | object fields => rfl
      | _ =>
        rw [value] at outcome
        cases first : original.outcome.getD (.object []) with
        | object fields =>
          rw [first] at outcome
          cases outcome
        | _ => simp [first, Json.isObject] at object

theorem unownedSnapshot_asks {scope : StopScope} {already : Nat} {originals : List IngressRow}
    (result : Store.Stop.Unowned.snapshot db scope already = .ok originals) :
    ∀ row ∈ originals, row.asks = true := by
  simp only [Store.Stop.Unowned.snapshot] at result
  obtain ⟨_, result⟩ := guard_ok.1 result
  intro row member
  obtain ⟨key, listed, read⟩ := mapM_made result row member
  split at read
  · cases read
  · next original found =>
    obtain ⟨_, read⟩ := guard_ok.1 read
    cases read
    have inside := (List.mergeSort_perm _ _).mem_iff.1 (List.mem_of_mem_take listed)
    obtain ⟨first, there, named⟩ := List.mem_map.1 inside
    obtain ⟨stored, asking⟩ := List.mem_filter.1 there
    have same := (Table.find_of_mem stored).symm.trans (named ▸ found)
    cases same
    simp only [Bool.and_eq_true] at asking
    exact asking.2

theorem unownedHold_moves {operation : String}
    {originals held : List IngressRow} (asks : ∀ row ∈ originals, row.asks = true)
    (result : Store.Stop.Unowned.hold hooks operation db originals = .ok (held, next)) :
    JournalMove db next := by
  refine foldlM_keeps (P := fun state : List IngressRow × StopDb σ => JournalMove db state.2)
    ?_ (.refl db) result
  intro original member state after moved step
  exact moved.trans (unownedOne_moves (asks original member) step)

theorem pointer_append (value : Json) (front back : List String) :
    value.pointer (front ++ back) = (value.pointer front).bind (·.pointer back) :=
  List.foldlM_append

/-- What the transaction of a stop validates of its own request -/
structure OwnRequest (db : StopDb σ) (record : IngressRow) : Prop where
  found : db.ingress.find record.ingressId = some record
  asks : record.asks = false
  prompt : record.newCommandPrompt = none

theorem validate_own {scope : StopScope} {binding : Json} {record : IngressRow}
    (result : Store.Stop.validate db scope binding (some record) = .ok ()) :
    OwnRequest db record := by
  simp only [Store.Stop.validate] at result
  cases referred : Store.Stop.reference binding with
  | none =>
    rw [referred] at result
    cases result
  | some reference =>
    rw [referred] at result
    obtain ⟨_, result⟩ := guard_ok.1 result
    obtain ⟨valid, _, result⟩ := bind_ok.1 result
    obtain ⟨matched, _⟩ := guard_ok.1 result
    simp only [Option.any_some, Bool.or_eq_true, not_or, Bool.not_eq_true,
      Bool.not_eq_false'] at matched
    have matched := matched.2
    simp only [Store.Stop.expectedMatches] at matched
    split at matched
    · cases matched
    · simp only [Bool.and_eq_true, decide_eq_true_eq] at matched
      obtain ⟨⟨⟨⟨⟨⟨⟨⟨⟨⟨⟨⟨found, kind⟩, _⟩, _⟩, _⟩, _⟩, _⟩, _⟩, _⟩, _⟩, _⟩, _⟩, command⟩ :=
        matched
      -- the only command of the request is the stop
      have only : ∃ stop, record.payload.pointer ["plan", "Execute"] =
          some (.object [("Stop", stop)]) := by
        rw [command]
        simp only [Store.Stop.reference] at referred
        split at referred
        · next here => exact ⟨_, here⟩
        · cases referred
      obtain ⟨stop, only⟩ := only
      have other : ∀ name rest, name ≠ "Stop" →
          record.payload.pointer ("plan" :: "Execute" :: name :: rest) = none := by
        intro name rest apart
        have path := pointer_append record.payload ["plan", "Execute"] (name :: rest)
        rw [only] at path
        refine path.trans ?_
        show ((Json.object [("Stop", stop)]).get name).bind _ = none
        simp [Json.get, Ne.symm apart]
      refine ⟨found, ?_, ?_⟩
      · simp [IngressRow.asks, kind, Json.hasText, other]
      · simp [IngressRow.newCommandPrompt, kind, other]

theorem claimRecord_moves {expected claimed : Option IngressRow} {receipt : StopReceipt} {now : Rat}
    (own : ∀ record, expected = some record → ∀ row, db.ingress.find record.ingressId = some row →
      row.asks = false ∧ row.newCommandPrompt = none)
    (result : Store.Stop.claimRecord hooks expected receipt now db = .ok (claimed, next)) :
    JournalMove db next ∧ ∀ record, expected = some record → ∃ row, claimed = some row ∧
      row.ingressId = record.ingressId ∧ row.phase = "stop_accepted" ∧
      row.outcome = some (Store.Stop.acceptedOutcome receipt) := by
  cases expected with
  | none =>
    cases result
    exact ⟨.refl db, fun record named => (nomatch named)⟩
  | some expected =>
    simp only [Store.Stop.claimRecord] at result
    obtain ⟨⟨changed, after⟩, update, result⟩ := bind_ok.1 result
    obtain ⟨_, result⟩ := guard_ok.1 result
    cases result
    refine ⟨.of_update update fun row found chosen _ => ?_, ?_⟩
    · simp only [Bool.and_eq_true, beq_iff_eq] at chosen
      obtain ⟨asks, prompt⟩ := own expected rfl row (chosen.1.1.1 ▸ found)
      exact .claimed receipt now chosen.1.1.2 chosen.1.2 asks prompt
    · rintro record ⟨⟩
      exact ⟨_, rfl, rfl, rfl, rfl⟩

/-- The stop's own request holds the acceptance. -/
def AcceptedFor (next : StopDb σ) (expected : Option IngressRow) (receipt : StopReceipt) : Prop :=
  ∀ record, expected = some record → ∃ row, next.ingress.find record.ingressId = some row ∧
    row.phase = "stop_accepted" ∧ row.outcome = some (Store.Stop.acceptedOutcome receipt)

theorem loop_ingress {target : String} {requests : List (String × Json)}
    (loop : Stop.LoopHeld target requests db next) : next.ingress = db.ingress := by
  obtain ⟨holds, rfl⟩ := loop.only
  rfl

/-- The two writes to the journal in the transaction of a stop, between its validations -/
theorem stopStages_moves {call : Store.Stop.StopCall}
    (stages : Stop.StopStages hooks call db next) :
    JournalMove db next ∧ AcceptedFor next call.expected stages.receipt := by
  have same : stages.third.ingress = db.ingress := by
    obtain ⟨_, _, _, _, queued⟩ := stages.queued
    obtain ⟨_, _, prepared⟩ := stages.prepared
    obtain ⟨_, _, third⟩ := stages.between
    rw [third]
    exact (loop_ingress (Stop.holdEach_ok prepared)).trans (loop_ingress (Stop.holdEach_ok queued))
  obtain ⟨_, originals_ok⟩ := stages.asks
  obtain ⟨_, advanced⟩ := stages.advanced
  have holds : JournalMove db stages.fourth := (JournalMove.of_same same).trans
    (unownedHold_moves (unownedSnapshot_asks originals_ok) stages.unowned)
  have claims := claimRecord_moves (fun record named row found => by
    have validated := stages.validated
    rw [named] at validated
    have own := validate_own validated
    obtain ⟨later, there, moves⟩ := holds.moves _ record own.found
    rw [found] at there
    cases there
    rw [moves.same.asks, moves.same.prompt]
    exact ⟨own.asks, own.prompt⟩) stages.claim
  refine ⟨(holds.trans claims.1).trans (.of_same (Stop.advance_ok advanced).2.2.2), ?_⟩
  intro record named
  obtain ⟨row, claimed, id, phase, outcome⟩ := claims.2 record named
  have checked := stages.checked
  rw [claimed] at checked
  exact ⟨row, id ▸ (validate_own checked).found, phase, outcome⟩

theorem acceptScope_moves {call : Store.Stop.StopCall} {allowUncertain : Bool}
    {answer : Except StoreError (Option StopReceipt)}
    (ran : Store.Stop.acceptScope hooks call allowUncertain db = (answer, next)) :
    JournalMove db next ∧ ∀ receipt, answer = .ok (some receipt) →
      AcceptedFor next call.expected receipt := by
  simp only [Store.Stop.acceptScope] at ran
  split at ran
  · cases ran
    exact ⟨.refl db, fun receipt named => (nomatch named)⟩
  · split at ran
    · split at ran
      · cases ran
        exact ⟨.refl db, fun receipt named => (nomatch named)⟩
      · cases ran
        exact ⟨.refl db, fun receipt named => (nomatch named)⟩
    · cases ran
      exact ⟨.refl db, fun receipt named => (nomatch named)⟩
    · cases answer with
      | error e =>
        rw [commitWhen_error ran]
        exact ⟨.refl db, fun receipt named => (nomatch named)⟩
      | ok accepted =>
        obtain ⟨written, body, rfl⟩ := commitWhen_ok ran
        cases accepted with
        | none => exact ⟨.refl db, fun receipt named => (nomatch named)⟩
        | some accepted =>
          obtain ⟨stages, same, _⟩ := Stop.acceptScopeIn_stages body
          obtain ⟨moved, own⟩ := stopStages_moves stages
          refine ⟨moved, ?_⟩
          rintro receipt ⟨⟩
          exact same ▸ own

theorem acceptRunning_moves {call : Store.Stop.StopCall} {resident : String}
    {answer : Except StoreError (Option StopControl)}
    (ran : Store.Stop.Control.acceptRunning hooks call resident generation db = (answer, next)) :
    JournalMove db next ∧ ∀ control, answer = .ok (some control) →
      ∃ receipt, AcceptedFor next call.expected receipt := by
  simp only [Store.Stop.Control.acceptRunning] at ran
  split at ran
  · cases ran
    exact ⟨.refl db, fun control named => (nomatch named)⟩
  · split at ran
    · split at ran
      · cases ran
        exact ⟨.refl db, fun control named => (nomatch named)⟩
      · cases ran
        exact ⟨.refl db, fun control named => (nomatch named)⟩
    · cases ran
      exact ⟨.refl db, fun control named => (nomatch named)⟩
    · cases answer with
      | error e =>
        rw [commitWhen_error ran]
        exact ⟨.refl db, fun control named => (nomatch named)⟩
      | ok accepted =>
        obtain ⟨written, body, rfl⟩ := commitWhen_ok ran
        cases accepted with
        | none => exact ⟨.refl db, fun control named => (nomatch named)⟩
        | some accepted =>
          obtain ⟨stages, _⟩ := Stop.acceptRunningIn_stages body
          obtain ⟨moved, own⟩ := stopStages_moves stages
          exact ⟨moved, fun control _ => ⟨_, own⟩⟩

end Acceptance

end CodexRemote.Verified.Ingress

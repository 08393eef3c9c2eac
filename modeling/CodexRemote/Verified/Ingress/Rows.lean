import CodexRemote.Store.Ingress.NewPromptArm

/-! # Moves of one request

What each operation does to the row of a request.  A row is sound when the evidence in its outcome
could only have been written by the operation that owns it; a move of a sound row goes forward,
and takes nothing out of the outcome that was written once.
-/

namespace CodexRemote.Verified.Ingress

open Foundations Store Store.Ingress

/-- The order of the states; a request that is held leaves it for good. -/
def rank : IngressState → Nat
  | .staged => 0
  | .acknowledged => 1
  | .executing => 2
  | .owned => 3
  | .completed => 3
  | .held => 4

def saved (row : IngressRow) (field : String) : Option Json := row.outcome.bind (·.get field)

/-- The acceptance of a stop with this receipt is in the outcome: it is the outcome, or the field of
a later result. -/
def StopRecord (row : IngressRow) (receipt : StopReceipt) : Prop :=
  (row.phase = "stop_accepted" ∧ row.outcome = some (Store.Stop.acceptedOutcome receipt)) ∨
    saved row "stop_receipt" = some (Store.Stop.acceptedOutcome receipt)

/-! ## The moves -/

/-- What an operation does to one row, with what it found there -/
inductive RowMove (row : IngressRow) : IngressRow → Prop where
  | acknowledged (now : Rat) (state : row.state = .staged) : RowMove row { row with
      state := .acknowledged
      phase := "acknowledged"
      updatedAt := now }
  | confirming (now : Rat) (phase : row.phase = "canonical_duplicate") : RowMove row { row with
      phase := "confirmation_retry"
      updatedAt := now }
  | executing (phase : String) (target : Option String) (now : Rat)
      (state : row.state = .staged ∨ row.state = .acknowledged) : RowMove row { row with
      state := .executing
      phase := phase
      targetThreadId := target
      updatedAt := now }
  | starting (generation : Int) (now : Rat)
      (state : row.state = .staged ∨ row.state = .acknowledged ∨
        (row.state = .executing ∧ row.phase = "processing"))
      (prompt : row.newCommandPrompt.isSome) : RowMove row { row with
      state := .executing
      phase := "thread/start"
      targetThreadId := none
      outcome := outcomeSet row "thread_start_generation" (.integer generation)
      updatedAt := now }
  | created (target : String) (now : Rat) (phase : row.phase = "thread/start") : RowMove row { row with
      phase := "thread/created"
      targetThreadId := some target
      updatedAt := now }
  | finished (outcome kept : Json) (now : Rat) (state : row.state ≠ .held)
      (keeps : keepEvidence row outcome = .ok kept) : RowMove row { row with
      state := if row.ownerId.isNone then .completed else .owned
      phase := "result_recorded"
      outcome := some kept
      updatedAt := now }
  | confirmed (now : Rat) : RowMove row { row with
      confirmationDelivered := true
      updatedAt := now }
  | modeSet (mode : Json) : RowMove row
      { row with payload := row.payload.set "processing_mode" mode }
  | armUsed (arm : Json) (now : Rat) : RowMove row { row with
      payload := row.payload.set "new_prompt_arm" arm
      updatedAt := now }
  | prepared (input : Json) (now : Rat) (state : row.state = .executing)
      (phase : row.phase = "processing") (prompt : row.newCommandPrompt.isSome)
      (unwritten : saved row "new_input" = none) : RowMove row { row with
      outcome := outcomeSet row "new_input" input
      updatedAt := now }
  | context (creation : Json) (generation : Int) (now : Rat) (state : row.state = .executing)
      (phase : row.phase = "thread/start") (started : startedUnder generation row = true)
      (unwritten : saved row "new_creation" = none) : RowMove row { row with
      outcome := outcomeSet row "new_creation" creation
      updatedAt := now }
  | verified (evidence : Json) (owner : row.ownerId.isSome) (prompt : row.newCommandPrompt.isSome)
      (same : ∀ old, saved row "new_verification" = some old → old = evidence) : RowMove row
      { row with outcome := outcomeSet row "new_verification" evidence }
  | stopped (evidence : Json) (reason : String) (asks : row.asks = true)
      (object : (row.outcome.getD (.object [])).isObject = true) : RowMove row { row with
      state := .held
      holdReason := reason
      outcome := outcomeSet row "stop_hold" evidence }
  | claimed (receipt : StopReceipt) (now : Rat) (state : row.state = .executing)
      (phase : row.phase = "processing") (asks : row.asks = false)
      (prompt : row.newCommandPrompt = none) : RowMove row { row with
      phase := "stop_accepted"
      updatedAt := now
      outcome := some (Store.Stop.acceptedOutcome receipt) }
  | retired (reason : String) (unwritten : row.outcome = none) : RowMove row { row with
      state := .held
      phase := "cleanup_retired"
      holdReason := reason }

/-! ## What the moves leave alone -/

/-- What a request is, for good -/
structure SameRequest (before after : IngressRow) : Prop where
  ingressId : after.ingressId = before.ingressId
  kind : after.kind = before.kind
  eventId : after.eventId = before.eventId
  channelId : after.channelId = before.channelId
  ownerUserId : after.ownerUserId = before.ownerUserId
  ownerId : after.ownerId = before.ownerId
  asks : after.asks = before.asks
  prompt : after.newCommandPrompt = before.newCommandPrompt

theorem SameRequest.refl (row : IngressRow) : SameRequest row row :=
  ⟨rfl, rfl, rfl, rfl, rfl, rfl, rfl, rfl⟩

theorem SameRequest.trans {a b c : IngressRow} (left : SameRequest a b) (right : SameRequest b c) :
    SameRequest a c :=
  ⟨right.ingressId.trans left.ingressId, right.kind.trans left.kind,
    right.eventId.trans left.eventId, right.channelId.trans left.channelId,
    right.ownerUserId.trans left.ownerUserId, right.ownerId.trans left.ownerId,
    right.asks.trans left.asks, right.prompt.trans left.prompt⟩

variable {key : String} {after before row : IngressRow} {value : Json}

theorem pointer_set_ne {first : String} (other : first ≠ key) (value field : Json)
    (path : List String) :
    (value.set key field).pointer (first :: path) = value.pointer (first :: path) := by
  show ((value.set key field).get first).bind _ = (value.get first).bind _
  rw [Json.get_set_ne other]

/-- A field that the store itself adds does not change what a request asks for. -/
theorem asks_set (row : IngressRow) (field : Json) (version : "version" ≠ key)
    (plan : "plan" ≠ key) (work : "work" ≠ key) :
    ({ row with payload := row.payload.set key field } : IngressRow).asks = row.asks := by
  simp only [IngressRow.asks, Json.versionOne, Json.hasText, slashAsks, Json.get_set_ne version,
    pointer_set_ne plan, pointer_set_ne work]

theorem newCommandPrompt_set (row : IngressRow) (field : Json)
    (version : "version" ≠ key) (plan : "plan" ≠ key) (work : "work" ≠ key)
    (command : "command" ≠ key) (prompt : "prompt" ≠ key) :
    ({ row with payload := row.payload.set key field } : IngressRow).newCommandPrompt =
      row.newCommandPrompt := by
  cases kind : row.kind with
  | action =>
    simp only [IngressRow.newCommandPrompt, kind, Json.get_set_ne command, Json.get_set_ne prompt]
  | message =>
    simp only [IngressRow.newCommandPrompt, kind, Json.versionOne, Json.get_set_ne version,
      pointer_set_ne plan]
    rfl
  | interaction =>
    simp only [IngressRow.newCommandPrompt, kind, Json.versionOne, Json.get_set_ne version,
      pointer_set_ne work]
    rfl

theorem RowMove.same (move : RowMove before after) :
    SameRequest before after := by
  cases move with
  | modeSet mode =>
    exact ⟨rfl, rfl, rfl, rfl, rfl, rfl,
      asks_set before mode (by decide) (by decide) (by decide),
      newCommandPrompt_set before mode (by decide) (by decide) (by decide) (by decide)
        (by decide)⟩
  | armUsed arm now =>
    exact ⟨rfl, rfl, rfl, rfl, rfl, rfl,
      asks_set before arm (by decide) (by decide) (by decide),
      newCommandPrompt_set before arm (by decide) (by decide) (by decide) (by decide)
        (by decide)⟩
  | _ => exact ⟨rfl, rfl, rfl, rfl, rfl, rfl, rfl, rfl⟩

/-! ## Sound rows -/

/-- The evidence of a new thread, and the attempt that precedes it -/
def creationFields : List String := "thread_start_generation" :: evidenceFields

structure SoundRow (row : IngressRow) : Prop where
  /-- Nothing is written, and nobody owns the request, before its execution begins, -/
  fresh : row.state = .staged ∨ row.state = .acknowledged →
    row.outcome = none ∧ row.ownerId = none
  /-- a stop's receipt only with its result, -/
  unfinished : row.state = .executing → saved row "stop_receipt" = none
  /-- and the evidence of a new thread only for a request for one. -/
  creating : row.state = .executing → ∀ field ∈ creationFields, (saved row field).isSome →
    row.newCommandPrompt.isSome
  /-- An accepted stop is no request for a turn, and has no result yet. -/
  accepted : ∀ receipt, row.phase = "stop_accepted" →
    row.outcome = some (Store.Stop.acceptedOutcome receipt) →
      row.asks = false ∧ row.newCommandPrompt = none
  pending : row.phase = "stop_accepted" → saved row "stop_receipt" = none

/-- A request goes forward through its states, and its outcome keeps what was written once. -/
structure Forward (before after : IngressRow) : Prop where
  same : SameRequest before after
  rank : rank before.state ≤ rank after.state
  owned : before.state = .owned → before.ownerId.isSome → after.state = .owned ∨ after.state = .held
  completed : before.state = .completed → before.ownerId = none →
    after.state = .completed ∨ after.state = .held
  evidence : ∀ field ∈ evidenceFields, ∀ value, saved before field = some value →
    saved after field = some value
  stop : ∀ receipt, StopRecord before receipt → StopRecord after receipt

theorem Forward.refl (row : IngressRow) : Forward row row :=
  ⟨.refl row, Nat.le_refl _, fun state _ => .inl state, fun state _ => .inl state,
    fun _ _ _ found => found, fun _ record => record⟩

theorem rank_held {state : IngressState} (last : rank .held ≤ rank state) : state = .held := by
  cases state <;> simp [rank] at last ⊢

theorem Forward.trans {a b c : IngressRow} (left : Forward a b) (right : Forward b c) :
    Forward a c where
  same := left.same.trans right.same
  rank := Nat.le_trans left.rank right.rank
  owned state owner := by
    obtain kept | held := left.owned state owner
    · exact right.owned kept (by rw [left.same.ownerId]; exact owner)
    · exact .inr (rank_held (held ▸ right.rank))
  completed state owner := by
    obtain kept | held := left.completed state owner
    · exact right.completed kept (by rw [left.same.ownerId]; exact owner)
    · exact .inr (rank_held (held ▸ right.rank))
  evidence field member value found :=
    right.evidence field member value (left.evidence field member value found)
  stop receipt record := right.stop receipt (left.stop receipt record)

/-! ## What a written field does to an outcome -/

theorem saved_outcomeSet_ne {field : String}
    (other : field ≠ key) (written : after.outcome = outcomeSet row key value) :
    saved after field = saved row field := by
  rw [saved, written, outcomeSet, Option.bind_some, Json.get_set_ne other, saved]
  cases row.outcome with
  | none => rfl
  | some outcome => rfl

theorem saved_of_outcome (same : after.outcome = before.outcome)
    (field : String) : saved after field = saved before field := by rw [saved, same, saved]

theorem acceptedOutcome_get (receipt : StopReceipt) {field : String}
    (other : field ∉ ["execution_end_confirmed", "ingresses", "jobs", "kind"]) :
    (Store.Stop.acceptedOutcome receipt).get field = none := by
  simp only [List.mem_cons, List.not_mem_nil, or_false, not_or] at other
  obtain ⟨end', ingresses, jobs, kind⟩ := other
  simp [Store.Stop.acceptedOutcome, Json.get, Ne.symm end', Ne.symm ingresses, Ne.symm jobs,
    Ne.symm kind]

/-- An outcome to which the store added a field of its own is no stop's acceptance. -/
theorem outcomeSet_not_accepted
    {receipt : StopReceipt} (other : key ∉ ["execution_end_confirmed", "ingresses", "jobs", "kind"]) :
    outcomeSet row key value ≠ some (Store.Stop.acceptedOutcome receipt) := by
  intro same
  have same : (row.outcome.getD (.object [])).set key value = Store.Stop.acceptedOutcome receipt :=
    Option.some.inj same
  cases outcome : row.outcome.getD (.object []) with
  | object fields =>
    have found := Json.get_set (show Json.isObject (.object fields) = true from rfl) key value
    rw [← outcome, same, acceptedOutcome_get receipt other] at found
    cases found
  | _ =>
    rw [outcome] at same
    cases same

/-! ## States -/

/-- The state stays, is held, or a request that is not finished goes on. -/
def Advances (before after : IngressState) : Prop :=
  after = before ∨ after = .held ∨ (rank before < 3 ∧ rank before ≤ rank after)

theorem rank_le_held (state : IngressState) : rank state ≤ rank .held := by
  cases state <;> simp [rank]

theorem Advances.rank_le {before after : IngressState} (advances : Advances before after) :
    rank before ≤ rank after := by
  obtain same | held | ⟨_, le⟩ := advances
  · rw [same]
  · rw [held]
    exact rank_le_held before
  · exact le

theorem Advances.acknowledged : Advances .staged .acknowledged := .inr (.inr (by decide))

theorem Advances.executing {state : IngressState}
    (before : state = .staged ∨ state = .acknowledged) : Advances state .executing := by
  obtain rfl | rfl := before
  · exact .inr (.inr (by decide))
  · exact .inr (.inr (by decide))

theorem rank_unheld {state : IngressState} (unheld : state ≠ .held) : rank state ≤ 3 := by
  cases state with
  | held => exact absurd rfl unheld
  | _ => simp [rank]

theorem rank_ended (owner : Option String) :
    rank (if owner.isNone then .completed else .owned) = 3 := by
  cases owner <;> rfl

/-- A finished state only leaves to be held. -/
theorem Advances.finished {before after : IngressState} (advances : Advances before after)
    (last : rank before = 3) : after = before ∨ after = .held := by
  obtain same | held | ⟨early, _⟩ := advances
  · exact .inl same
  · exact .inr held
  · omega

theorem Forward.of_advances (same : SameRequest before after)
    (advances : Advances before.state after.state)
    (evidence : ∀ field ∈ evidenceFields, ∀ value, saved before field = some value →
      saved after field = some value)
    (stop : ∀ receipt, StopRecord before receipt → StopRecord after receipt) :
    Forward before after where
  same := same
  rank := advances.rank_le
  owned state _ := by
    have ended := advances.finished (by rw [state]; rfl)
    rwa [state] at ended
  completed state _ := by
    have ended := advances.finished (by rw [state]; rfl)
    rwa [state] at ended
  evidence := evidence
  stop := stop

/-! ## Moves that write no outcome -/

theorem Forward.of_outcome (same : SameRequest before after)
    (advances : Advances before.state after.state) (outcome : after.outcome = before.outcome)
    (phase : before.phase = "stop_accepted" → before.outcome ≠ none → after.phase = before.phase) :
    Forward before after := by
  refine .of_advances same advances ?_ ?_
  · intro field _ value found
    rw [saved_of_outcome outcome, found]
  · rintro receipt (⟨accepted, found⟩ | found)
    · left
      rw [phase accepted (by rw [found]; simp), outcome]
      exact ⟨accepted, found⟩
    · right
      rw [saved_of_outcome outcome, found]

/-! ## Moves that write a field -/

theorem keepField_ok {lost : StoreError} {outcome kept : Json} {field : String} {value : Option Json}
    (result : keepField lost outcome field value = .ok kept) :
    (∀ v, value = some v → kept.get field = some v) ∧
      ∀ other ≠ field, kept.get other = outcome.get other := by
  cases value with
  | none =>
    cases result
    exact ⟨fun v found => (nomatch found), fun _ _ => rfl⟩
  | some v =>
    simp only [keepField] at result
    obtain ⟨object, result⟩ := guard_ok.1 result
    cases result
    refine ⟨?_, fun other apart => Json.get_set_ne apart outcome v⟩
    rintro _ ⟨⟩
    exact Json.get_set (by simpa using object) field v

/-- A result keeps the receipt of its stop, and the evidence of its thread. -/
theorem keepEvidence_ok {outcome kept : Json} (result : keepEvidence row outcome = .ok kept) :
    (∃ receipt, stopReceipt row = .ok receipt ∧
      ∀ v, receipt = some v → kept.get "stop_receipt" = some v) ∧
      ∀ field ∈ evidenceFields, ∀ value, saved row field = some value →
        kept.get field = some value := by
  simp only [keepEvidence, evidenceFields, List.foldlM_cons, List.foldlM_nil] at result
  obtain ⟨receipt, found, result⟩ := bind_ok.1 result
  obtain ⟨first, receipted, result⟩ := bind_ok.1 result
  obtain ⟨second, created, result⟩ := bind_ok.1 result
  obtain ⟨third, verified, result⟩ := bind_ok.1 result
  obtain ⟨fourth, input, result⟩ := bind_ok.1 result
  cases result
  have receipted := keepField_ok receipted
  have created := keepField_ok created
  have verified := keepField_ok verified
  have input := keepField_ok input
  refine ⟨⟨receipt, found, ?_⟩, ?_⟩
  · intro v some
    rw [input.2 _ (by decide), verified.2 _ (by decide), created.2 _ (by decide)]
    exact receipted.1 v some
  · intro field member value there
    simp only [evidenceFields, List.mem_cons, List.not_mem_nil, or_false] at member
    obtain rfl | rfl | rfl := member
    · rw [input.2 _ (by decide), verified.2 _ (by decide)]
      exact created.1 value there
    · rw [input.2 _ (by decide)]
      exact verified.1 value there
    · exact input.1 value there

/-- A field that the store adds to an outcome takes nothing away. -/
theorem Forward.of_field
    (same : SameRequest before after) (advances : Advances before.state after.state)
    (written : after.outcome = outcomeSet before key value) (own : key ≠ "stop_receipt")
    (once : key ∈ evidenceFields → ∀ old, saved before key = some old → saved after key = some old)
    (open' : ∀ receipt, before.phase = "stop_accepted" →
      before.outcome ≠ some (Store.Stop.acceptedOutcome receipt)) : Forward before after := by
  refine .of_advances same advances ?_ ?_
  · intro field member old found
    by_cases same : field = key
    · subst same
      exact once member old found
    · rw [saved_outcomeSet_ne same written, found]
  · rintro receipt (⟨accepted, found⟩ | found)
    · exact absurd found (open' receipt accepted)
    · right
      rw [saved_outcomeSet_ne (Ne.symm own) written, found]

theorem Forward.of_finished {outcome kept : Json} {now : Rat}
    (sound : SoundRow row) (held : row.state ≠ .held)
    (keeps : keepEvidence row outcome = .ok kept) :
    Forward row { row with
      state := if row.ownerId.isNone then .completed else .owned
      phase := "result_recorded"
      outcome := some kept
      updatedAt := now } := by
  obtain ⟨⟨receipt, found, receipted⟩, evidence⟩ := keepEvidence_ok keeps
  constructor
  · exact ⟨rfl, rfl, rfl, rfl, rfl, rfl, rfl, rfl⟩
  · exact Nat.le_trans (rank_unheld held) (Nat.le_of_eq (rank_ended row.ownerId).symm)
  · intro _ owner
    left
    rw [Option.isSome_iff_ne_none] at owner
    simp [owner]
  · intro _ owner
    left
    simp [owner]
  · exact evidence
  · rintro saved' (⟨accepted, written⟩ | old)
    · -- the outcome itself becomes the receipt
      right
      simp only [stopReceipt, accepted, beq_self_eq_true, if_true, written] at found
      have object : (some (Store.Stop.acceptedOutcome saved')).filter Json.isObject =
          some (Store.Stop.acceptedOutcome saved') := rfl
      rw [object] at found
      cases found
      exact receipted _ rfl
    · right
      have phase : (row.phase == "stop_accepted") = false := by
        rw [beq_eq_false_iff_ne]
        intro accepted
        rw [sound.pending accepted] at old
        cases old
      rw [stopReceipt, phase] at found
      cases found
      exact receipted _ old

/-! ## Every move goes forward -/

theorem RowMove.forward (move : RowMove before after)
    (sound : SoundRow before) : Forward before after := by
  have same := move.same
  cases move with
  | acknowledged now state =>
    refine .of_outcome same (state ▸ .acknowledged) rfl ?_
    exact fun _ written => absurd (sound.fresh (.inl state)).1 written
  | confirming now phase =>
    refine .of_outcome same (.inl rfl) rfl ?_
    intro accepted
    rw [phase] at accepted
    exact absurd accepted (by decide)
  | executing phase target now state =>
    refine .of_outcome same (.executing state) rfl ?_
    exact fun _ written => absurd (sound.fresh state).1 written
  | starting generation now state prompt =>
    have advances : Advances before.state .executing := by
      obtain state | state | ⟨state, _⟩ := state
      · exact .executing (.inl state)
      · exact .executing (.inr state)
      · exact .inl state.symm
    refine .of_field same advances rfl (by decide) (fun known => absurd known (by decide)) ?_
    intro receipt accepted written
    obtain state | state | ⟨_, phase⟩ := state
    · rw [(sound.fresh (.inl state)).1] at written
      cases written
    · rw [(sound.fresh (.inr state)).1] at written
      cases written
    · rw [phase] at accepted
      exact absurd accepted (by decide)
  | created target now phase =>
    refine .of_outcome same (.inl rfl) rfl ?_
    intro accepted
    rw [phase] at accepted
    exact absurd accepted (by decide)
  | finished outcome kept now state keeps => exact .of_finished sound state keeps
  | confirmed now => exact .of_outcome same (.inl rfl) rfl fun _ _ => rfl
  | modeSet mode => exact .of_outcome same (.inl rfl) rfl fun _ _ => rfl
  | armUsed arm now => exact .of_outcome same (.inl rfl) rfl fun _ _ => rfl
  | prepared input now state phase prompt unwritten =>
    refine .of_field same (.inl rfl) rfl (by decide) ?_ ?_
    · intro _ old found
      rw [unwritten] at found
      cases found
    · intro receipt accepted
      rw [phase] at accepted
      exact absurd accepted (by decide)
  | context creation generation now state phase started unwritten =>
    refine .of_field same (.inl rfl) rfl (by decide) ?_ ?_
    · intro _ old found
      rw [unwritten] at found
      cases found
    · intro receipt accepted
      rw [phase] at accepted
      exact absurd accepted (by decide)
  | verified evidence owner prompt agrees =>
    refine .of_field same (.inl rfl) rfl (by decide) ?_ ?_
    · -- the evidence that is there is written again
      intro _ old found
      rw [← agrees old found]
      refine Json.get_set ?_ _ _
      cases outcome : before.outcome with
      | none => rfl
      | some value =>
        rw [saved, outcome, Option.bind_some] at found
        cases value with
        | object fields => rfl
        | _ => cases found
    · intro receipt accepted written
      rw [(sound.accepted receipt accepted written).2] at prompt
      cases prompt
  | stopped evidence reason asks object =>
    refine .of_field same (.inr (.inl rfl)) rfl (by decide) (fun known => absurd known (by decide)) ?_
    intro receipt accepted written
    rw [(sound.accepted receipt accepted written).1] at asks
    cases asks
  | claimed receipt now state phase asks prompt =>
    refine .of_advances same (.inl rfl) ?_ ?_
    · -- the request of a stop has no evidence of a new thread
      intro field member value found
      have known := sound.creating state field (List.mem_cons_of_mem _ member) (by rw [found]; rfl)
      rw [prompt] at known
      cases known
    · rintro earlier (⟨accepted, _⟩ | found)
      · rw [phase] at accepted
        exact absurd accepted (by decide)
      · rw [sound.unfinished state] at found
        cases found
  | retired reason unwritten =>
    exact .of_outcome same (.inr (.inl rfl)) rfl fun _ written => absurd unwritten written

/-! ## Every move keeps a row sound -/

theorem SoundRow.of_unwritten (unwritten : row.outcome = none)
    (unowned : row.ownerId = none) : SoundRow row where
  fresh _ := ⟨unwritten, unowned⟩
  unfinished _ := by rw [saved, unwritten]; rfl
  creating _ field _ written := by
    rw [saved, unwritten] at written
    cases written
  accepted receipt _ found := by
    rw [unwritten] at found
    cases found
  pending _ := by rw [saved, unwritten]; rfl

theorem SoundRow.of_outcome (sound : SoundRow before)
    (same : SameRequest before after) (state : after.state = before.state)
    (outcome : after.outcome = before.outcome)
    (phase : after.phase = "stop_accepted" → before.phase = "stop_accepted") : SoundRow after where
  fresh early := by
    rw [state] at early
    rw [outcome, same.ownerId]
    exact sound.fresh early
  unfinished begun := by
    rw [saved_of_outcome outcome]
    exact sound.unfinished (state ▸ begun)
  creating begun field member written := by
    rw [saved_of_outcome outcome] at written
    rw [same.prompt]
    exact sound.creating (state ▸ begun) field member written
  accepted receipt accepted found := by
    rw [same.asks, same.prompt]
    exact sound.accepted receipt (phase accepted) (outcome ▸ found)
  pending accepted := by
    rw [saved_of_outcome outcome]
    exact sound.pending (phase accepted)

/-- A field of its own is written by the operation that may write it. -/
theorem SoundRow.of_field
    (same : SameRequest before after) (written : after.outcome = outcomeSet before key value)
    (other : key ∉ ["execution_end_confirmed", "ingresses", "jobs", "kind"])
    (own : key ≠ "stop_receipt") (begun : after.state ≠ .staged ∧ after.state ≠ .acknowledged)
    (unfinished : after.state = .executing → saved before "stop_receipt" = none)
    (creating : after.state = .executing → before.newCommandPrompt.isSome)
    (pending : after.phase = "stop_accepted" → saved before "stop_receipt" = none) :
    SoundRow after where
  fresh early := by
    obtain state | state := early
    · exact absurd state begun.1
    · exact absurd state begun.2
  unfinished state := by
    rw [saved_outcomeSet_ne (Ne.symm own) written]
    exact unfinished state
  creating state _ _ _ := by
    rw [same.prompt]
    exact creating state
  accepted receipt _ found := by
    rw [written] at found
    exact absurd found (outcomeSet_not_accepted other)
  pending accepted := by
    rw [saved_outcomeSet_ne (Ne.symm own) written]
    exact pending accepted

theorem RowMove.sound (move : RowMove before after) (sound : SoundRow before) : SoundRow after := by
  have same := move.same
  cases move with
  | acknowledged now state =>
    obtain ⟨unwritten, unowned⟩ := sound.fresh (.inl state)
    exact .of_unwritten unwritten unowned
  | confirming now phase =>
    refine sound.of_outcome same rfl rfl fun accepted => ?_
    exact absurd (show "confirmation_retry" = "stop_accepted" from accepted) (by decide)
  | executing phase target now state =>
    obtain ⟨unwritten, unowned⟩ := sound.fresh state
    exact .of_unwritten unwritten unowned
  | starting generation now state prompt =>
    refine .of_field same rfl (by decide) (by decide) ⟨nofun, nofun⟩ ?_ (fun _ => prompt)
      fun accepted => absurd (show "thread/start" = "stop_accepted" from accepted) (by decide)
    intro _
    obtain state | state | ⟨state, _⟩ := state
    · rw [saved, (sound.fresh (.inl state)).1]
      rfl
    · rw [saved, (sound.fresh (.inr state)).1]
      rfl
    · exact sound.unfinished state
  | created target now phase =>
    refine sound.of_outcome same rfl rfl fun accepted => ?_
    exact absurd (show "thread/created" = "stop_accepted" from accepted) (by decide)
  | finished outcome kept now state keeps =>
    have ended := rank_ended before.ownerId
    constructor
    · rintro (early | early)
      · rw [show (if before.ownerId.isNone then _ else _) = _ from early] at ended
        cases ended
      · rw [show (if before.ownerId.isNone then _ else _) = _ from early] at ended
        cases ended
    · intro begun
      rw [show (if before.ownerId.isNone then _ else _) = _ from begun] at ended
      cases ended
    · intro begun
      rw [show (if before.ownerId.isNone then _ else _) = _ from begun] at ended
      cases ended
    · intro receipt accepted
      exact absurd (show "result_recorded" = "stop_accepted" from accepted) (by decide)
    · intro accepted
      exact absurd (show "result_recorded" = "stop_accepted" from accepted) (by decide)
  | confirmed now => exact sound.of_outcome same rfl rfl id
  | modeSet mode => exact sound.of_outcome same rfl rfl id
  | armUsed arm now => exact sound.of_outcome same rfl rfl id
  | prepared input now state phase prompt unwritten =>
    refine .of_field same rfl (by decide) (by decide) ?_ sound.unfinished (fun _ => prompt)
      sound.pending
    rw [state]
    exact ⟨nofun, nofun⟩
  | context creation generation now state phase started unwritten =>
    refine .of_field same rfl (by decide) (by decide) ?_ sound.unfinished ?_ sound.pending
    · rw [state]
      exact ⟨nofun, nofun⟩
    · -- only the attempt of a request for a new thread has a generation
      intro _
      refine sound.creating state "thread_start_generation" (by decide) ?_
      rw [saved]
      cases found : before.outcome.bind (·.get "thread_start_generation") with
      | none =>
        rw [startedUnder, found] at started
        cases started
      | some value => rfl
  | verified evidence owner prompt agrees =>
    refine .of_field same rfl (by decide) (by decide) ?_ sound.unfinished (fun _ => prompt)
      sound.pending
    constructor
    · intro state
      rw [(sound.fresh (.inl state)).2] at owner
      cases owner
    · intro state
      rw [(sound.fresh (.inr state)).2] at owner
      cases owner
  | stopped evidence reason asks object =>
    exact .of_field same rfl (by decide) (by decide) ⟨nofun, nofun⟩ nofun nofun sound.pending
  | claimed receipt now state phase asks prompt =>
    constructor
    · rintro (early | early)
      · cases state.symm.trans early
      · cases state.symm.trans early
    · intro _
      exact @acceptedOutcome_get receipt "stop_receipt" (by decide)
    · intro _ field member written
      have other : field ∉ ["execution_end_confirmed", "ingresses", "jobs", "kind"] := by
        simp only [creationFields, evidenceFields, List.mem_cons, List.not_mem_nil, or_false]
          at member
        obtain rfl | rfl | rfl | rfl := member <;> decide
      rw [saved, Option.bind_some, acceptedOutcome_get receipt other] at written
      cases written
    · exact fun _ _ _ => ⟨asks, prompt⟩
    · intro _
      exact @acceptedOutcome_get receipt "stop_receipt" (by decide)
  | retired reason unwritten =>
    constructor
    · rintro (early | early) <;> cases early
    · nofun
    · nofun
    · intro receipt accepted
      exact absurd (show "cleanup_retired" = "stop_accepted" from accepted) (by decide)
    · intro accepted
      exact absurd (show "cleanup_retired" = "stop_accepted" from accepted) (by decide)

end CodexRemote.Verified.Ingress

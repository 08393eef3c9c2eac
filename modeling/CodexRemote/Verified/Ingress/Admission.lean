import CodexRemote.Verified.Ingress.Moves

/-! # What an admission does

A request is new when neither its id nor its event is in the journal; then one row is added for it.
Any other admission changes nothing.
-/

namespace CodexRemote.Verified.Ingress

open Foundations Store Store.Ingress

variable {σ : Type}

/-! ## The request that is inserted -/

/-- The parts of a request that no preparation changes -/
structure SameEvent (prepared request : NewIngress) : Prop where
  ingressId : prepared.ingressId = request.ingressId
  kind : prepared.kind = request.kind
  eventId : prepared.eventId = request.eventId
  channelId : prepared.channelId = request.channelId
  ownerUserId : prepared.ownerUserId = request.ownerUserId

theorem SameEvent.refl (request : NewIngress) : SameEvent request request := ⟨rfl, rfl, rfl, rfl, rfl⟩

variable {db next : StopDb σ} {request : NewIngress} {row : IngressRow}

theorem captureOriginsIn_same {origin : StopDb σ → Int → Except StoreError Json}
    {original : NewIngress}
    (result : captureOriginsIn origin db original = .ok request) : SameEvent request original := by
  simp only [captureOriginsIn] at result
  obtain ⟨bound, stop, result⟩ := bind_ok.1 result
  have first : SameEvent bound original := by
    obtain ⟨_, stop⟩ | ⟨_, stop⟩ := ite_ok.1 stop
    · obtain ⟨captured, _, rfl⟩ := map_ok.1 stop
      exact ⟨rfl, rfl, rfl, rfl, rfl⟩
    · cases stop
      exact .refl original
  obtain ⟨_, result⟩ | ⟨_, result⟩ := ite_ok.1 result
  · obtain ⟨found, _, rfl⟩ := map_ok.1 result
    exact ⟨first.ingressId, first.kind, first.eventId, first.channelId, first.ownerUserId⟩
  · cases result
    exact first

theorem withoutConsumption_same (request : NewIngress) :
    SameEvent (withoutConsumption request) request := by
  simp only [withoutConsumption]
  split
  · exact ⟨rfl, rfl, rfl, rfl, rfl⟩
  · exact .refl request

theorem prepareIn_same {origin : StopDb σ → Int → Except StoreError Json}
    {prepared : NewIngress} {arm : Option String}
    (result : prepareIn origin db request = .ok (prepared, arm)) : SameEvent prepared request := by
  simp only [prepareIn] at result
  obtain ⟨_, result⟩ | ⟨_, result⟩ := ite_ok.1 result
  · cases result
    exact .refl _
  · obtain ⟨_, result⟩ | ⟨_, result⟩ := ite_ok.1 result
    · cases result
      exact ⟨rfl, rfl, rfl, rfl, rfl⟩
    · obtain ⟨_, result⟩ | ⟨_, result⟩ := ite_ok.1 result
      · cases result
        exact .refl _
      · split at result
        · cases result
          exact withoutConsumption_same request
        · obtain ⟨_, result⟩ | ⟨_, result⟩ := ite_ok.1 result
          · cases result
            exact withoutConsumption_same request
          · obtain ⟨payload, _, result⟩ := bind_ok.1 result
            cases result
            exact ⟨rfl, rfl, rfl, rfl, rfl⟩

/-! ## The row that is added -/

/-- The row of a request, as it is inserted -/
structure RowOf (request : NewIngress) (row : IngressRow) : Prop where
  ingressId : row.ingressId = request.ingressId
  kind : row.kind = request.kind
  eventId : row.eventId = request.eventId
  channelId : row.channelId = request.channelId
  ownerUserId : row.ownerUserId = request.ownerUserId

theorem RowOf.of_same {request : NewIngress} {before after : IngressRow}
    (row : RowOf request before) (same : SameRequest before after) : RowOf request after :=
  ⟨same.ingressId.trans row.ingressId, same.kind.trans row.kind, same.eventId.trans row.eventId,
    same.channelId.trans row.channelId, same.ownerUserId.trans row.ownerUserId⟩

/-- One new request, whose id and event the journal did not have -/
structure NewRequest (request : NewIngress) (db next : StopDb σ) : Prop where
  id : db.ingress.find request.ingressId = none
  event : request.eventId.isSome → ∀ row ∈ db.ingress.rows, row.eventId ≠ request.eventId
  moves : ∀ key row, db.ingress.find key = some row →
    ∃ after, next.ingress.find key = some after ∧ RowMoves row after
  closed : ∀ key, key ≠ request.ingressId → db.ingress.find key = none →
    next.ingress.find key = none
  row : ∃ row, next.ingress.find request.ingressId = some row ∧ RowOf request row ∧ SoundRow row

theorem existing_none
    (result : existing db request = .ok none) : db.ingress.find request.ingressId = none ∧
      (request.eventId.isSome → ∀ row ∈ db.ingress.rows, row.eventId ≠ request.eventId) := by
  simp only [existing] at result
  obtain ⟨origin, found, result⟩ := bind_ok.1 result
  cases byId : db.ingress.find request.ingressId with
  | some row =>
    rw [byId] at result
    cases result
  | none =>
    rw [byId] at result
    cases result
    refine ⟨rfl, ?_⟩
    intro named row member
    cases event : request.eventId with
    | none =>
      rw [event] at named
      cases named
    | some event' =>
      rw [event] at found
      simp only [byOrigin] at found
      intro same
      have listed : row ∈ db.ingress.select (·.eventId == some event') :=
        List.mem_filter.2 ⟨member, by simp [same]⟩
      split at found
      · next none =>
        rw [none] at listed
        cases listed
      · cases found
      · cases found

/-- The insert, with the hold of a fence -/
theorem insertRow_ok {hooks : AdmissionHooks (StopTables σ)}
    {inserted : IngressRow} (unwritten : row.outcome = none) (unowned : row.ownerId = none)
    (result : insertRow hooks db row = .ok (inserted, next)) :
    next.ingress.rows = db.ingress.rows ++ [inserted] ∧ SameRequest row inserted ∧
      inserted.outcome = none ∧ SoundRow inserted := by
  simp only [insertRow] at result
  obtain ⟨_, result⟩ := guard_ok.1 result
  obtain ⟨_, result⟩ := guard_ok.1 result
  split at result
  · cases result
  · next ingress added =>
    cases result
    refine ⟨(Table.insert_some added).1, ?_⟩
    cases hooks.fence db row with
    | none => exact ⟨.refl row, unwritten, .of_unwritten unwritten unowned⟩
    | some held =>
      exact ⟨⟨rfl, rfl, rfl, rfl, rfl, rfl, rfl, rfl⟩, unwritten,
        .of_unwritten unwritten unowned⟩

theorem consumeArm_moves {hooks : AdmissionHooks (StopTables σ)}
    {key : String} (result : consumeArm hooks request db key = .ok next) :
    JournalMove db next := by
  obtain ⟨⟨changed, written⟩, update, result⟩ := bind_ok.1 result
  cases result
  exact .of_update update fun row _ _ _ => .armUsed _ _

theorem retireBlocked_moves {hooks : AdmissionHooks (StopTables σ)}
    (unwritten : ∀ found, db.ingress.find row.ingressId = some found → found.outcome = none)
    (result : retireBlocked hooks db row = .ok next) : JournalMove db next := by
  obtain ⟨_, result⟩ | ⟨_, result⟩ := ite_ok.1 result
  · obtain ⟨⟨changed, written⟩, update, result⟩ := bind_ok.1 result
    cases result
    refine .of_update update fun other found chosen _ => .retired retiredReason (unwritten other ?_)
    rwa [← beq_iff_eq.1 chosen]
  · cases result
    exact .refl db

/-! ## Answers -/

/-- An event that is not ambiguous has one row. -/
theorem only_of_event {origin : Option IngressRow} {other : IngressRow}
    (found : (match request.eventId with
      | none => .ok none
      | some event => byOrigin db event) = Except.ok origin)
    (isSome : request.eventId.isSome) (there : row ∈ db.ingress.rows)
    (here : other ∈ db.ingress.rows) (own : row.eventId = request.eventId)
    (same : other.eventId = request.eventId) : row = other := by
  cases event : request.eventId with
  | none =>
    rw [event] at isSome
    cases isSome
  | some event' =>
    rw [event] at found own same
    simp only [byOrigin] at found
    have first : row ∈ db.ingress.select (·.eventId == some event') :=
      List.mem_filter.2 ⟨there, by simp [own]⟩
    have second : other ∈ db.ingress.select (·.eventId == some event') :=
      List.mem_filter.2 ⟨here, by simp [same]⟩
    split at found
    · next none =>
      rw [none] at first
      cases first
    · next only =>
      rw [only] at first second
      exact (List.mem_singleton.1 first).trans (List.mem_singleton.1 second).symm
    · cases found

theorem existing_some (result : existing db request = .ok (some row)) : row ∈ db.ingress.rows ∧
      (row.ingressId = request.ingressId ∨
        (request.eventId.isSome ∧ row.eventId = request.eventId)) := by
  simp only [existing] at result
  obtain ⟨origin, found, result⟩ := bind_ok.1 result
  cases byId : db.ingress.find request.ingressId with
  | some other =>
    rw [byId] at result
    cases result
    exact ⟨Table.mem_of_find byId, .inl (Table.find_key byId)⟩
  | none =>
    rw [byId] at result
    cases result
    cases event : request.eventId with
    | none =>
      rw [event] at found
      cases found
    | some event' =>
      rw [event] at found
      simp only [byOrigin] at found
      split at found
      · cases found
      · next only =>
        cases found
        have listed : row ∈ db.ingress.select (·.eventId == some event') := by
          rw [only]
          exact List.mem_singleton.2 rfl
        obtain ⟨member, same⟩ := List.mem_filter.1 listed
        exact ⟨member, .inr ⟨rfl, by simpa using same⟩⟩
      · cases found

/-- What is found for a request of this event is every row that the journal knows it by. -/
theorem existing_known {other : IngressRow}
    (result : existing db request = .ok (some other)) (member : row ∈ db.ingress.rows)
    (known : row.ingressId = request.ingressId ∨
      (request.eventId.isSome ∧ row.eventId = request.eventId))
    (event : other.eventId = request.eventId) : other = row := by
  simp only [existing] at result
  obtain ⟨origin, found, result⟩ := bind_ok.1 result
  cases byId : db.ingress.find request.ingressId with
  | some first =>
    rw [byId] at result
    cases result
    obtain named | ⟨isSome, same⟩ := known
    · exact Table.eq_of_key (Table.mem_of_find byId) member ((Table.find_key byId).trans named.symm)
    · exact only_of_event found isSome (Table.mem_of_find byId) member event same
  | none =>
    rw [byId] at result
    cases result
    obtain named | ⟨isSome, same⟩ := known
    · rw [← named, Table.find_of_mem member] at byId
      cases byId
    · obtain ⟨there, _⟩ := existing_some (by rw [existing, byId, found]; rfl :
        existing db request = .ok (some other))
      exact only_of_event found isSome there member event same

/-- An admission either answers what is there and changes nothing, or adds one new request. -/
theorem admitIn_cases {hooks : IngressHooks σ}
    {answer : IngressAdmission} (result : Ingress.admitIn hooks.admission request db = .ok (answer, next)) :
    (answer.created = false ∧ next = db) ∨ (answer.created = true ∧ NewRequest request db next) := by
  simp only [Ingress.admitIn] at result
  obtain ⟨_, _, result⟩ := bind_ok.1 result
  obtain ⟨found, looked, result⟩ := bind_ok.1 result
  cases found with
  | some row =>
    obtain ⟨_, result⟩ := guard_ok.1 result
    cases result
    exact .inl ⟨rfl, rfl⟩
  | none =>
    obtain ⟨_, result⟩ | ⟨_, result⟩ := ite_ok.1 result
    · cases result
      exact .inl ⟨rfl, rfl⟩
    · right
      obtain ⟨⟨prepared, arm⟩, preparation, result⟩ := bind_ok.1 result
      obtain ⟨consumed, armed, result⟩ := bind_ok.1 result
      obtain ⟨⟨row, inserted⟩, insertion, result⟩ := bind_ok.1 result
      obtain ⟨rest, _, result⟩ := bind_ok.1 result
      obtain ⟨retired, retirement, result⟩ := bind_ok.1 result
      obtain ⟨_, _, result⟩ := bind_ok.1 result
      cases result
      obtain ⟨original, captured, preparation⟩ := bind_ok.1 preparation
      have same := captureOriginsIn_same captured
      have prepared_same := prepareIn_same preparation
      have first : JournalMove db consumed := by
        cases arm with
        | none =>
          cases armed
          exact .refl db
        | some key => exact consumeArm_moves armed
      obtain ⟨rows, own, unwritten, sound⟩ := insertRow_ok rfl rfl insertion
      have ofRequest : RowOf request row := by
        refine RowOf.of_same ?_ own
        exact ⟨prepared_same.ingressId.trans same.ingressId, prepared_same.kind.trans same.kind,
          prepared_same.eventId.trans same.eventId, prepared_same.channelId.trans same.channelId,
          prepared_same.ownerUserId.trans same.ownerUserId⟩
      have here : inserted.ingress.find row.ingressId = some row := by
        rw [Table.find_append rows, if_pos rfl]
      have last : JournalMove inserted next := by
        refine (JournalMove.of_rest rest).trans (retireBlocked_moves (fun other found => ?_)
          retirement)
        have found : inserted.ingress.find row.ingressId = some other := found
        rw [here] at found
        cases found
        exact unwritten
      obtain ⟨free, fresh⟩ := existing_none looked
      refine ⟨rfl, free, fresh, ?_, ?_, ?_⟩
      · intro key before found
        obtain ⟨middle, there, moved⟩ := first.moves key before found
        have other : row.ingressId ≠ key := by
          intro clash
          rw [← clash, ofRequest.ingressId, free] at found
          cases found
        have still : inserted.ingress.find key = some middle := by
          rw [Table.find_append rows, if_neg other, there]
        obtain ⟨after, final, rest⟩ := last.moves key middle still
        exact ⟨after, final, moved.trans rest⟩
      · intro key other missing
        refine last.closed key ?_
        rw [Table.find_append rows, if_neg (by rw [ofRequest.ingressId]; exact Ne.symm other)]
        exact first.closed key missing
      · obtain ⟨after, final, moved⟩ := last.moves _ row here
        exact ⟨after, ofRequest.ingressId ▸ final, ofRequest.of_same moved.same, moved.sound sound⟩

end CodexRemote.Verified.Ingress

import CodexRemote.Verified.ServerRequests.Maps

/-! # Runs of the server request store

The history of a run says which requests were taken in, announced, answered and resolved.
-/

namespace CodexRemote.Verified.ServerRequests

open Foundations AppServer

inductive RequestEvent where
  | recorded (request : ServerRequest) (accepted : Bool)
      (outcome : Except ServerRequestRecordError ServerRequestRecordOutcome)
  | began (id : RequestId) (occurrence : ServerRequestOccurrence)
      (result : Except ResponseError Unit)
  | marked (id : RequestId) (occurrence : ServerRequestOccurrence)
  | resolved (id : RequestId) (occurrence : ServerRequestOccurrence)
      (result : Except ResponseError (Option ServerRequest))

inductive RequestStep : ServerRequestState → RequestEvent → ServerRequestState → Prop where
  | record {state : ServerRequestState} {request : ServerRequest} :
      RequestStep state (.recorded request (accepts state request) (state.record request).1)
        (state.record request).2
  | begin {state : ServerRequestState} {id : RequestId} {occurrence : ServerRequestOccurrence} :
      RequestStep state (.began id occurrence (state.beginResponse id occurrence).1)
        (state.beginResponse id occurrence).2
  | mark {state : ServerRequestState} {id : RequestId} {occurrence : ServerRequestOccurrence} :
      RequestStep state (.marked id occurrence) (state.markIndeterminate id occurrence)
  | resolve {state : ServerRequestState} {id : RequestId} {occurrence : ServerRequestOccurrence} :
      RequestStep state (.resolved id occurrence (state.resolve id occurrence).1)
        (state.resolve id occurrence).2

abbrev RequestRun (state : ServerRequestState) (events : List RequestEvent)
    (next : ServerRequestState) : Prop :=
  Run RequestStep state events next

/-! ## What an event says -/

def RequestEvent.accepted? : RequestEvent → Option ServerRequest
  | .recorded request true _ => some request
  | _ => none

/-- The request that an event announces. -/
def RequestEvent.announced? : RequestEvent → Option ServerRequest
  | .recorded _ _ (.ok (.broadcast request)) => some request
  | .resolved _ _ (.ok promoted) => promoted
  | _ => none

def RequestEvent.answered? : RequestEvent → Option ServerRequestKey
  | .began id occurrence (.ok ()) => some ⟨id, occurrence⟩
  | _ => none

def RequestEvent.resolved? : RequestEvent → Option ServerRequestKey
  | .resolved id occurrence (.ok _) => some ⟨id, occurrence⟩
  | _ => none

def RequestEvent.occurrence? : RequestEvent → Option ServerRequestOccurrence
  | .recorded request _ _ => some request.occurrence
  | _ => none

def accepted (events : List RequestEvent) : List ServerRequest :=
  events.filterMap RequestEvent.accepted?

def announced (events : List RequestEvent) : List ServerRequest :=
  events.filterMap RequestEvent.announced?

def answered (events : List RequestEvent) : List ServerRequestKey :=
  events.filterMap RequestEvent.answered?

def resolved (events : List RequestEvent) : List ServerRequestKey :=
  events.filterMap RequestEvent.resolved?

/-- Each recorded request has an occurrence of its own. -/
def Fresh (events : List RequestEvent) : Prop :=
  (events.filterMap RequestEvent.occurrence?).Nodup

/-- The keys of a list of requests. -/
def keysOf (requests : List ServerRequest) : List ServerRequestKey :=
  requests.map .forRequest

/-- The requests of the three maps. -/
def held (state : ServerRequestState) : List ServerRequest :=
  state.pending.rows ++ (state.claimed.rows.map (·.request) ++ state.deferred.rows)

/-- What the history says about the store. -/
structure Custody (past : List RequestEvent) (state : ServerRequestState) : Prop where
  kept : Kept state
  order : ∀ key, key ∈ state.order ↔ key ∈ keysOf (accepted past) ∧ key ∉ resolved past
  held : ∀ request ∈ held state, request ∈ accepted past
  settled : ∀ key ∈ resolved past, key ∈ keysOf (accepted past)
  claims : ∀ key ∈ answered past, key ∈ claimedKeys state ∨ key ∈ resolved past
  answeredOnce : (answered past).Nodup
  told : ∀ request ∈ announced past, request ∈ accepted past
  toldOnce : ∀ key, (keysOf (announced past)).count key =
    if key ∈ keysOf (accepted past) ∧ key ∉ deferredKeys state then 1 else 0

section

variable {past : List RequestEvent} {state next : ServerRequestState} {event : RequestEvent}
  {request : ServerRequest} {id : RequestId} {occurrence : ServerRequestOccurrence}

theorem accepted_snoc :
    accepted (past ++ [event]) = accepted past ++ event.accepted?.toList :=
  filterMap_snoc ..

theorem announced_snoc :
    announced (past ++ [event]) = announced past ++ event.announced?.toList :=
  filterMap_snoc ..

theorem answered_snoc :
    answered (past ++ [event]) = answered past ++ event.answered?.toList :=
  filterMap_snoc ..

theorem resolved_snoc :
    resolved (past ++ [event]) = resolved past ++ event.resolved?.toList :=
  filterMap_snoc ..

theorem Fresh.front {back : List RequestEvent} (fresh : Fresh (past ++ back)) : Fresh past := by
  rw [Fresh, List.filterMap_append] at fresh
  exact (List.nodup_append.1 fresh).1

/-- What was taken in was recorded. -/
theorem accepted_occurrence (taken : request ∈ accepted past) :
    request.occurrence ∈ past.filterMap RequestEvent.occurrence? := by
  obtain ⟨event, there, own⟩ := List.mem_filterMap.1 taken
  refine List.mem_filterMap.2 ⟨event, there, ?_⟩
  cases event with
  | recorded request accepted outcome =>
    cases accepted with
    | true =>
      cases own
      rfl
    | false => cases own
  | _ => cases own

/-- A new request has a new key. -/
theorem Fresh.new {result : Bool} {outcome : Except ServerRequestRecordError ServerRequestRecordOutcome}
    (fresh : Fresh (past ++ [.recorded request result outcome])) :
    ServerRequestKey.forRequest request ∉ keysOf (accepted past) := by
  intro there
  obtain ⟨other, taken, same⟩ := List.mem_map.1 there
  rw [Fresh, List.filterMap_append] at fresh
  refine (List.nodup_append.1 fresh).2.2 _ (accepted_occurrence taken) request.occurrence
    (List.mem_singleton_self _) ?_
  exact congrArg ServerRequestKey.occurrence same

/-- An event that says nothing. -/
theorem Custody.quiet (known : Custody past state) (accepted : event.accepted? = none)
    (announced : event.announced? = none) (answered : event.answered? = none)
    (resolved : event.resolved? = none) : Custody (past ++ [event]) state := by
  obtain ⟨kept, order, held, settled, claims, answeredOnce, told, toldOnce⟩ := known
  refine ⟨kept, ?_, ?_, ?_, ?_, ?_, ?_, ?_⟩
  all_goals
    simp only [accepted_snoc, announced_snoc, answered_snoc, resolved_snoc, accepted, announced,
      answered, resolved, Option.toList_none, List.append_nil]
    assumption

/-- What the history says about a request that is taken in, whichever map it goes to. -/
theorem Custody.taken {outcome : Except ServerRequestRecordError ServerRequestRecordOutcome}
    (known : Custody past state) (fresh : Fresh (past ++ [.recorded request true outcome]))
    (kept : Kept next) (order : next.order = state.order ++ [.forRequest request])
    (rows : ∀ other ∈ ServerRequests.held next, other ∈ ServerRequests.held state ∨ other = request)
    (claimed : claimedKeys next = claimedKeys state)
    (told : ∀ other ∈ announced (past ++ [.recorded request true outcome]),
      other ∈ announced past ∨ other = request)
    (toldOnce : ∀ key, (keysOf (announced (past ++ [.recorded request true outcome]))).count key =
      if key ∈ keysOf (accepted past ++ [request]) ∧ key ∉ deferredKeys next then 1 else 0) :
    Custody (past ++ [.recorded request true outcome]) next := by
  have taken : accepted (past ++ [.recorded request true outcome]) = accepted past ++ [request] :=
    accepted_snoc
  have settled : resolved (past ++ [.recorded request true outcome]) = resolved past := by
    rw [resolved_snoc]
    exact List.append_nil _
  have claims : answered (past ++ [.recorded request true outcome]) = answered past := by
    rw [answered_snoc]
    exact List.append_nil _
  refine ⟨kept, ?_, ?_, ?_, ?_, ?_, ?_, taken ▸ toldOnce⟩
  · intro key
    rw [order, taken, settled, keysOf, List.map_append, List.mem_append, List.mem_append,
      known.order]
    constructor
    · rintro (⟨before, unresolved⟩ | here)
      · exact ⟨Or.inl before, unresolved⟩
      · refine ⟨Or.inr here, fun there => ?_⟩
        rw [List.mem_singleton.1 here] at there
        exact fresh.new (known.settled _ there)
    · rintro ⟨before | here, unresolved⟩
      · exact Or.inl ⟨before, unresolved⟩
      · exact Or.inr here
  · rw [taken]
    intro other there
    obtain before | rfl := rows other there
    · exact List.mem_append_left _ (known.held other before)
    · exact List.mem_append_right _ (List.mem_singleton_self _)
  · rw [taken, settled, keysOf, List.map_append]
    exact fun key there => List.mem_append_left _ (known.settled key there)
  · rw [claims, settled, claimed]
    exact known.claims
  · rw [claims]
    exact known.answeredOnce
  · rw [taken]
    intro other there
    obtain before | rfl := told other there
    · exact List.mem_append_left _ (known.told other before)
    · exact List.mem_append_right _ (List.mem_singleton_self _)

theorem mem_deferred_order (kept : Kept state) {key : ServerRequestKey}
    (there : key ∈ deferredKeys state) : key ∈ state.order :=
  kept.mem_order.2 (Or.inr (Or.inr there))

theorem Custody.record {outcome : Except ServerRequestRecordError ServerRequestRecordOutcome}
    (known : Custody past state) (fresh : Fresh (past ++ [.recorded request true outcome]))
    (recorded : Recorded state request outcome next) :
    Custody (past ++ [.recorded request true outcome]) next := by
  have new := fresh.new
  have unordered : ServerRequestKey.forRequest request ∉ state.order :=
    fun there => new ((known.order _).1 there).1
  have kept := known.kept.record unordered recorded
  have untold := known.toldOnce (.forRequest request)
  rw [if_neg fun both => new both.1] at untold
  cases recorded with
  | broadcast free room =>
    have rows : (state.pending.put request).rows = state.pending.rows ++ [request] := by
      refine Table.put_free (Table.find_none_iff.2 fun other there same => free ?_)
      exact List.mem_append_left _ (List.mem_map.2 ⟨other, there, same⟩)
    have told : announced (past ++ [.recorded request true (.ok (.broadcast request))]) =
        announced past ++ [request] := announced_snoc
    have waits : deferredKeys { state with
        order := state.order ++ [.forRequest request]
        pending := state.pending.put request } = deferredKeys state := rfl
    refine known.taken fresh kept rfl ?_ rfl ?_ ?_
    · simp only [ServerRequests.held, rows, List.mem_append, List.mem_singleton]
      tauto
    · rw [told]
      simp only [List.mem_append, List.mem_singleton]
      exact fun other there => there
    · intro key
      have before := known.toldOnce key
      rw [told, waits]
      simp only [keysOf, List.map_append, List.map_singleton, List.count_append,
        List.count_singleton, List.mem_append, List.mem_singleton] at before untold ⊢
      by_cases own : key = .forRequest request
      · subst own
        have undeferred : ServerRequestKey.forRequest request ∉ deferredKeys state :=
          fun there => unordered (mem_deferred_order known.kept there)
        rw [untold]
        simp [undeferred]
      · rw [before]
        simp [own, Ne.symm own]
  | deferred behind free room =>
    have rows := Table.put_free free
    have told : announced (past ++ [.recorded request true (.ok .deferred)]) =
        announced past := by
      rw [announced_snoc]
      exact List.append_nil _
    have waits : deferredKeys { state with
        order := state.order ++ [.forRequest request]
        deferred := state.deferred.put request } =
          deferredKeys state ++ [.forRequest request] := by
      simp only [deferredKeys, rows, List.map_append, List.map_singleton]
    refine known.taken fresh kept rfl ?_ rfl ?_ ?_
    · simp only [ServerRequests.held, rows, List.mem_append, List.mem_singleton]
      tauto
    · rw [told]
      exact fun other there => Or.inl there
    · intro key
      have before := known.toldOnce key
      rw [told, waits]
      simp only [keysOf, List.map_append, List.map_singleton, List.mem_append,
        List.mem_singleton] at before untold ⊢
      by_cases own : key = .forRequest request
      · subst own
        rw [untold]
        simp
      · rw [before]
        simp [own]

/-- No key is pending and claimed. -/
theorem pending_not_claimed (kept : Kept state) {key : ServerRequestKey}
    (pending : key ∈ pendingKeys state) : key ∉ claimedKeys state := by
  have distinct := kept.perm.nodup_iff.1 kept.distinct
  exact fun claimed => (List.nodup_append.1 distinct).2.2 _ pending _
    (List.mem_append_left _ claimed) rfl

theorem Custody.begin (known : Custody past state) (there : request ∈ state.pending.rows)
    (unclaimed : state.claimed.find (.forRequest request) = none) :
    Custody (past ++ [.began request.id request.occurrence (.ok ())]) { state with
      pending := state.pending.remove request.id
      claimed := state.claimed.put ⟨request, .responding⟩ } := by
  have kept := known.kept.begin there unclaimed
  have own : ServerRequestKey.forRequest request ∈ pendingKeys state :=
    List.mem_map.2 ⟨request, there, rfl⟩
  have rows : (state.claimed.put ⟨request, .responding⟩).rows =
      state.claimed.rows ++ [⟨request, .responding⟩] := Table.put_free unclaimed
  have claimed : claimedKeys { state with
      pending := state.pending.remove request.id
      claimed := state.claimed.put ⟨request, .responding⟩ } =
        claimedKeys state ++ [.forRequest request] := by
    simp only [claimedKeys, rows, List.map_append, List.map_singleton]
    rfl
  refine ⟨kept, ?_, ?_, ?_, ?_, ?_, ?_, ?_⟩
  all_goals simp only [accepted_snoc, announced_snoc, answered_snoc, resolved_snoc,
    RequestEvent.accepted?, RequestEvent.announced?, RequestEvent.answered?,
    RequestEvent.resolved?, Option.toList_none, List.append_nil]
  · exact known.order
  · intro other here
    refine known.held other ?_
    simp only [ServerRequests.held, rows, List.map_append, List.map_singleton, List.mem_append,
      List.mem_singleton, Table.mem_remove] at here ⊢
    obtain ⟨before, _⟩ | (before | rfl) | before := here
    · exact Or.inl before
    · exact Or.inr (Or.inl before)
    · exact Or.inl there
    · exact Or.inr (Or.inr before)
  · exact known.settled
  · rw [claimed]
    intro key here
    obtain before | new := List.mem_append.1 here
    · exact (known.claims key before).imp_left (List.mem_append_left _)
    · exact Or.inl (List.mem_append_right _ new)
  · rw [List.nodup_append]
    refine ⟨known.answeredOnce, List.nodup_singleton _, ?_⟩
    -- a pending request has not been answered
    rintro key before other here rfl
    cases List.mem_singleton.1 here
    obtain claimed | resolved := known.claims _ before
    · exact pending_not_claimed known.kept own claimed
    · exact ((known.order _).1 (known.kept.mem_order.2 (Or.inl own))).2 resolved
  · exact known.told
  · exact known.toldOnce

theorem Custody.mark (known : Custody past state) :
    Custody (past ++ [.marked id occurrence]) (state.markIndeterminate id occurrence) := by
  refine Custody.quiet ⟨known.kept.mark, known.order, ?_, known.settled, ?_, known.answeredOnce,
    known.told, known.toldOnce⟩ rfl rfl rfl rfl
  · simp only [ServerRequests.held, markIndeterminate_requests]
    exact known.held
  · rw [markIndeterminate_keys]
    exact known.claims

theorem Custody.resolve {claimed : ClaimedServerRequest} (known : Custody past state)
    (there : claimed ∈ state.claimed.rows) :
    Custody (past ++ [.resolved claimed.request.id claimed.request.occurrence
        (.ok (state.deferred.find claimed.request.id))]) {
      order := state.order.filter fun ordered => ordered ≠ claimed.key
      pending := (state.deferred.find claimed.request.id).elim state.pending state.pending.put
      claimed := state.claimed.remove claimed.key
      deferred := state.deferred.remove claimed.request.id } := by
  have kept := known.kept.resolve there
  have ordered : claimed.key ∈ state.order :=
    known.kept.mem_order.2 (Or.inr (Or.inl (List.mem_map.2 ⟨claimed, there, rfl⟩)))
  have waits : ∀ other, state.deferred.find claimed.request.id = some other →
      other ∈ accepted past := fun other found =>
    known.held other (List.mem_append_right _ (List.mem_append_right _ (Table.mem_of_find found)))
  refine ⟨kept, ?_, ?_, ?_, ?_, ?_, ?_, ?_⟩
  all_goals simp only [accepted_snoc, announced_snoc, answered_snoc, resolved_snoc,
    RequestEvent.accepted?, RequestEvent.announced?, RequestEvent.answered?,
    RequestEvent.resolved?, Option.toList_none, Option.toList_some, List.append_nil,
    List.mem_append, List.mem_singleton]
  · intro key
    simp only [List.mem_filter, decide_eq_true_eq, known.order, not_or]
    exact and_assoc
  · intro other here
    refine known.held other ?_
    simp only [ServerRequests.held, List.mem_append, List.mem_map] at here ⊢
    obtain pending | ⟨mark, kept, same⟩ | deferred := here
    · cases found : state.deferred.find claimed.request.id with
      | none =>
        rw [found] at pending
        exact Or.inl pending
      | some waiting =>
        rw [found] at pending
        obtain ⟨before, _⟩ | rfl := Table.mem_put.1 pending
        · exact Or.inl before
        · exact Or.inr (Or.inr (Table.mem_of_find found))
    · exact Or.inr (Or.inl ⟨mark, (Table.mem_remove.1 kept).1, same⟩)
    · exact Or.inr (Or.inr (Table.mem_remove.1 deferred).1)
  · rintro key (before | rfl)
    · exact known.settled key before
    · exact ((known.order _).1 ordered).1
  · intro key here
    obtain claims | resolved := known.claims key here
    · obtain ⟨mark, kept, rfl⟩ := List.mem_map.1 claims
      by_cases same : mark.key = claimed.key
      · exact Or.inr (Or.inr same)
      · exact Or.inl (List.mem_map.2 ⟨mark, Table.mem_remove.2 ⟨kept, same⟩, rfl⟩)
    · exact Or.inr (Or.inl resolved)
  · exact known.answeredOnce
  · rintro other (before | promoted)
    · exact known.told other before
    · exact waits other (Option.mem_toList.1 promoted)
  · intro key
    have before := known.toldOnce key
    cases found : state.deferred.find claimed.request.id with
    | none =>
      have gone : (state.deferred.remove claimed.request.id).rows = state.deferred.rows :=
        List.filter_eq_self.2 fun other waiting => by
          simp [Table.find_none_iff.1 found other waiting]
      simp only [deferredKeys, gone, Option.toList_none, List.append_nil] at before ⊢
      exact before
    | some waiting =>
      obtain ⟨here, own⟩ := Table.find_some_iff.1 found
      have promoted := (Table.perm_remove here).map ServerRequestKey.forRequest
      rw [own] at promoted
      have once : (state.deferred.rows.map ServerRequestKey.forRequest).Nodup :=
        (List.nodup_append.1 (List.nodup_append.1
          (known.kept.perm.nodup_iff.1 known.kept.distinct)).2.1).2.1
      obtain ⟨apart, _⟩ := List.nodup_cons.1 (promoted.nodup_iff.1 once)
      simp only [deferredKeys, promoted.mem_iff, List.map_cons, List.mem_cons] at before
      simp only [keysOf, Option.toList_some, List.map_append, List.map_singleton,
        List.count_append, List.count_singleton, deferredKeys] at before ⊢
      by_cases same : key = .forRequest waiting
      · subst same
        have taken : ServerRequestKey.forRequest waiting ∈
            (accepted past).map ServerRequestKey.forRequest :=
          List.mem_map.2 ⟨waiting, waits waiting found, rfl⟩
        rw [before]
        simp [taken, apart]
      · rw [before]
        simp [same, Ne.symm same]

end

section

variable {past : List RequestEvent} {state next : ServerRequestState} {event : RequestEvent}

theorem Custody.step (known : Custody past state) (step : RequestStep state event next)
    (fresh : Fresh (past ++ [event])) : Custody (past ++ [event]) next := by
  cases step with
  | @record request =>
    obtain ⟨taken, recorded⟩ | ⟨left, same, unannounced⟩ := @record_cases state request
    · rw [taken] at fresh ⊢
      exact known.record fresh recorded
    · rw [left, same]
      refine known.quiet rfl ?_ rfl rfl
      simp only [RequestEvent.announced?]
      split
      · next told => exact absurd (RequestEvent.recorded.inj told).2.2 (unannounced _)
      · next told => cases told
      · rfl
  | @begin id occurrence =>
    obtain ⟨ok, request, there, own, unclaimed, after⟩ | ⟨refused, same⟩ :=
      @begin_cases state id occurrence
    · rw [ok, after]
      cases own
      exact known.begin there unclaimed
    · rw [same]
      refine known.quiet rfl rfl ?_ rfl
      simp only [RequestEvent.answered?]
      split
      · next told => exact absurd (RequestEvent.began.inj told).2.2 refused
      · rfl
  | mark => exact known.mark
  | @resolve id occurrence =>
    obtain ⟨claimed, there, own, ok⟩ | ⟨refused, same⟩ := @resolve_cases state id occurrence
    · rw [ok]
      cases own
      exact known.resolve there
    · rw [same]
      cases result : (state.resolve id occurrence).1 with
      | error error => exact known.quiet rfl rfl rfl rfl
      | ok promoted => exact absurd result (refused promoted)

end

theorem default_custody : Custody [] .default := by
  refine ⟨⟨.nil, .nil, Nat.zero_le _, .nil, ?_⟩, ?_, ?_, ?_, ?_, .nil, ?_, ?_⟩
  · intro request there
    cases there
  · intro key
    constructor
    · intro there
      cases there
    · rintro ⟨there, _⟩
      cases there
  · intro request there
    cases there
  · intro key there
    cases there
  · intro key there
    cases there
  · intro request there
    cases there
  · intro key
    rfl

theorem run_custody {events : List RequestEvent} {state : ServerRequestState}
    (run : RequestRun .default events state) (fresh : Fresh events) : Custody events state := by
  refine run.records (fun past state => Fresh past → Custody past state) ?_
    (fun _ => default_custody) fresh
  exact fun _ _ _ _ _ step known fresh => (known fresh.front).step step fresh

/-- Requests that were taken in with one occurrence are one request. -/
theorem Fresh.same {events : List RequestEvent} {request other : ServerRequest}
    (fresh : Fresh events) (taken : request ∈ accepted events) (again : other ∈ accepted events)
    (occurrence : request.occurrence = other.occurrence) : request = other := by
  have said : ∀ {event : RequestEvent} {request : ServerRequest},
      event.accepted? = some request → event.occurrence? = some request.occurrence := by
    intro event request own
    cases event with
    | recorded told taken outcome =>
      cases taken with
      | true =>
        cases own
        rfl
      | false => cases own
    | _ => cases own
  obtain ⟨first, there, own⟩ := List.mem_filterMap.1 taken
  obtain ⟨second, here, also⟩ := List.mem_filterMap.1 again
  have one : first = second :=
    eq_of_filterMap_nodup fresh there here (said own) (occurrence ▸ said also)
  subst one
  exact Option.some.inj (own.symm.trans also)

/-- A pending request has been announced. -/
theorem Custody.pending_told {past : List RequestEvent} {state : ServerRequestState}
    {request : ServerRequest} (known : Custody past state) (there : request ∈ state.pending.rows) :
    ServerRequestKey.forRequest request ∈ keysOf (announced past) := by
  have own : ServerRequestKey.forRequest request ∈ pendingKeys state :=
    List.mem_map.2 ⟨request, there, rfl⟩
  have taken := ((known.order _).1 (known.kept.mem_order.2 (Or.inl own))).1
  have undeferred : ServerRequestKey.forRequest request ∉ deferredKeys state := fun deferred =>
    (List.nodup_append.1 (known.kept.perm.nodup_iff.1 known.kept.distinct)).2.2 _ own _
      (List.mem_append_right _ deferred) rfl
  rw [← List.count_pos_iff, known.toldOnce, if_pos ⟨taken, undeferred⟩]
  exact Nat.one_pos

/-- Until it is resolved, a request that was taken in is in the order list once and in one of
the maps; the store stays within its capacity; an id has one active request, and another one
only behind a claimed one; an occurrence is answered once and announced once, before it is
answered; and a request that is not taken in changes nothing. -/
theorem server_request_custody {events : List RequestEvent} {state : ServerRequestState}
    (run : RequestRun .default events state) (fresh : Fresh events) :
    (∀ request ∈ accepted events, .forRequest request ∉ resolved events →
      state.order.count (.forRequest request) = 1 ∧ request ∈ held state ∧
        (pendingKeys state).count (.forRequest request) +
          (claimedKeys state).count (.forRequest request) +
          (deferredKeys state).count (.forRequest request) = 1) ∧
    (state.order.length ≤ maxUnsettledServerRequests ∧ (held state).length = state.order.length) ∧
    ((activeIds state).Nodup ∧
      ∀ request ∈ state.deferred.rows, request.id ∈ state.claimed.rows.map (·.request.id)) ∧
    ((answered events).map (·.occurrence)).Nodup ∧
    ((∀ request ∈ accepted events, (keysOf (announced events)).count (.forRequest request) =
        if .forRequest request ∈ deferredKeys state then 0 else 1) ∧
      ∀ request ∈ announced events, request ∈ accepted events) ∧
    (∀ past id occurrence back, events = past ++ .began id occurrence (.ok ()) :: back →
      ⟨id, occurrence⟩ ∈ keysOf (announced past)) ∧
    ∀ before request, accepts before request = false → (before.record request).2 = before := by
  have known := run_custody run fresh
  have kept := known.kept
  refine ⟨?_, ⟨kept.capacity, ?_⟩, ⟨kept.active, kept.behind⟩, ?_, ⟨?_, known.told⟩, ?_, ?_⟩
  · intro request taken unresolved
    have ordered : ServerRequestKey.forRequest request ∈ state.order :=
      (known.order _).2 ⟨List.mem_map.2 ⟨request, taken, rfl⟩, unresolved⟩
    have once := List.count_eq_one_of_mem kept.distinct ordered
    have split := kept.perm.count_eq (.forRequest request)
    rw [List.count_append, List.count_append, once] at split
    refine ⟨once, ?_, by omega⟩
    -- the request that is held under the key is the one that was taken in
    have keys : ServerRequestKey.forRequest request ∈ keysOf (held state) := by
      rw [held, keysOf, List.map_append, List.map_append, List.map_map]
      exact kept.perm.mem_iff.1 ordered
    obtain ⟨other, there, same⟩ := List.mem_map.1 keys
    cases fresh.same (known.held other there) taken (congrArg ServerRequestKey.occurrence same)
    exact there
  · have length := kept.perm.length_eq
    simp only [held, pendingKeys, claimedKeys, deferredKeys, List.length_append,
      List.length_map] at length ⊢
    exact length.symm
  · refine List.Nodup.map_on ?_ known.answeredOnce
    have taken : ∀ key ∈ answered events, key ∈ keysOf (accepted events) := by
      intro key there
      obtain claimed | resolved := known.claims key there
      · exact ((known.order key).1 (kept.mem_order.2 (Or.inr (Or.inl claimed)))).1
      · exact known.settled key resolved
    intro key there other here same
    obtain ⟨first, one, rfl⟩ := List.mem_map.1 (taken key there)
    obtain ⟨second, two, rfl⟩ := List.mem_map.1 (taken other here)
    rw [fresh.same one two same]
  · intro request taken
    have there : ServerRequestKey.forRequest request ∈ keysOf (accepted events) :=
      List.mem_map.2 ⟨request, taken, rfl⟩
    rw [known.toldOnce]
    by_cases deferred : ServerRequestKey.forRequest request ∈ deferredKeys state <;>
      simp [there, deferred]
  · intro past id occurrence back split
    subst split
    obtain ⟨before, after, front, step, _⟩ := run.split_at
    have known := run_custody front fresh.front
    generalize told : RequestEvent.began id occurrence (.ok ()) = event at step
    cases step with
    | begin =>
      obtain ⟨rfl, rfl, ok⟩ := RequestEvent.began.inj told
      obtain ⟨_, request, there, own, _⟩ | ⟨refused, _⟩ := @begin_cases before id occurrence
      · exact own ▸ known.pending_told there
      · exact absurd ok.symm refused
    | _ => cases told
  · intro before request refused
    obtain ⟨taken, _⟩ | ⟨_, same, _⟩ := @record_cases before request
    · rw [refused] at taken
      cases taken
    · exact same

/-! ## One id, used again while it is being answered -/

def firstRequest : ServerRequest :=
  ⟨.integer 7, .replicate 16 1, "item/commandExecution/requestApproval", .text "old"⟩

def secondRequest : ServerRequest :=
  ⟨.integer 7, .replicate 16 2, "item/commandExecution/requestApproval", .text "new"⟩

def exampleEvents : List RequestEvent :=
  [.recorded firstRequest true (.ok (.broadcast firstRequest)),
    .began (.integer 7) (.replicate 16 1) (.ok ()),
    .recorded secondRequest true (.ok .deferred),
    .resolved (.integer 7) (.replicate 16 1) (.ok (some secondRequest))]

theorem exampleEvents_run : ∃ state, RequestRun .default exampleEvents state ∧
    deferredKeys state = [] :=
  ⟨_, .cons .record (.cons .begin (.cons .record (.cons .resolve (.nil _)))), rfl⟩

theorem exampleEvents_fresh : Fresh exampleEvents := by
  rw [Fresh]
  decide

/-- The second request is announced once the first one is resolved. -/
theorem exampleEvents_custody : ∃ state, RequestRun .default exampleEvents state ∧
    state.order.count (.forRequest secondRequest) = 1 ∧
    (keysOf (announced exampleEvents)).count (.forRequest secondRequest) = 1 := by
  obtain ⟨state, run, empty⟩ := exampleEvents_run
  obtain ⟨custody, _, _, _, told, _⟩ := server_request_custody run exampleEvents_fresh
  have taken : secondRequest ∈ accepted exampleEvents := by simp [accepted, exampleEvents,
    RequestEvent.accepted?]
  refine ⟨state, run, (custody secondRequest taken (by decide)).1, ?_⟩
  rw [told.1 secondRequest taken, empty]
  rfl

end CodexRemote.Verified.ServerRequests

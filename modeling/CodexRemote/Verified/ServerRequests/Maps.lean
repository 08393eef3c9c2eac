import CodexRemote.AppServer.ServerRequests
import CodexRemote.Foundations.Queues
import CodexRemote.Foundations.Runs

/-! # Custody of server requests

Every accepted request is in the order list and in one of the three maps until it is resolved.
-/

namespace CodexRemote.Verified.ServerRequests

open Foundations AppServer

/-! ## What the store keeps -/

def pendingKeys (state : ServerRequestState) : List ServerRequestKey :=
  state.pending.rows.map .forRequest

def claimedKeys (state : ServerRequestState) : List ServerRequestKey :=
  state.claimed.rows.map ClaimedServerRequest.key

def deferredKeys (state : ServerRequestState) : List ServerRequestKey :=
  state.deferred.rows.map .forRequest

/-- The ids of the requests that are pending or claimed. -/
def activeIds (state : ServerRequestState) : List RequestId :=
  state.pending.rows.map (·.id) ++ state.claimed.rows.map (·.request.id)

structure Kept (state : ServerRequestState) : Prop where
  /-- the order list has the requests of the maps, each once -/
  perm : state.order.Perm (pendingKeys state ++ (claimedKeys state ++ deferredKeys state))
  distinct : state.order.Nodup
  capacity : state.order.length ≤ maxUnsettledServerRequests
  active : (activeIds state).Nodup
  behind : ∀ request ∈ state.deferred.rows, request.id ∈ state.claimed.rows.map (·.request.id)

/-- The store takes the request in. -/
def accepts (state : ServerRequestState) (request : ServerRequest) : Bool :=
  match (state.record request).1 with
  | .ok (.broadcast _) => true
  | .ok .deferred => (state.deferred.find request.id).isNone
  | _ => false

section

variable {state next : ServerRequestState} {request : ServerRequest} {id : RequestId}
  {occurrence : ServerRequestOccurrence}

/-! ## The operations -/

theorem claimedFor_none : state.claimedFor id = none ↔
    id ∉ state.claimed.rows.map (·.request.id) := by
  simp [ServerRequestState.claimedFor]

theorem ensureCapacity_ok (room : state.ensureCapacity id = .ok ()) :
    state.order.length < maxUnsettledServerRequests := by
  simp only [ServerRequestState.ensureCapacity] at room
  split at room
  · cases room
  · omega

/-- A request that is taken in becomes pending, or waits behind a claimed one. -/
inductive Recorded (state : ServerRequestState) (request : ServerRequest) :
    Except ServerRequestRecordError ServerRequestRecordOutcome → ServerRequestState → Prop where
  | broadcast (free : request.id ∉ activeIds state)
      (room : state.order.length < maxUnsettledServerRequests) :
      Recorded state request (.ok (.broadcast request))
        { state with
          order := state.order ++ [.forRequest request], pending := state.pending.put request }
  | deferred (behind : request.id ∈ state.claimed.rows.map (·.request.id))
      (free : state.deferred.find request.id = none)
      (room : state.order.length < maxUnsettledServerRequests) :
      Recorded state request (.ok .deferred)
        { state with
          order := state.order ++ [.forRequest request], deferred := state.deferred.put request }

/-- A request is taken in, or nothing changes. -/
theorem record_cases :
    (accepts state request = true ∧
      Recorded state request (state.record request).1 (state.record request).2) ∨
    (accepts state request = false ∧ (state.record request).2 = state ∧
      ∀ told, (state.record request).1 ≠ .ok (.broadcast told)) := by
  cases pending : state.pending.find request.id with
  | some existing =>
    right
    cases same : existing.repeats request <;>
      simp [accepts, ServerRequestState.record, pending, same]
  | none =>
    have free : request.id ∉ state.pending.rows.map (·.id) := by
      intro there
      obtain ⟨other, kept, same⟩ := List.mem_map.1 there
      exact Table.find_none_iff.1 pending other kept same
    cases claimed : state.claimedFor request.id with
    | some existing =>
      have behind : request.id ∈ state.claimed.rows.map (·.request.id) := by
        by_contra none
        rw [claimedFor_none.2 none] at claimed
        cases claimed
      cases same : existing.request.repeats request with
      | true =>
        right
        simp [accepts, ServerRequestState.record, pending, claimed, same]
      | false =>
        cases deferred : state.deferred.find request.id with
        | some waiting =>
          right
          cases again : waiting.repeats request <;>
            simp [accepts, ServerRequestState.record, pending, claimed, same, deferred, again]
        | none =>
          cases room : state.ensureCapacity request.id with
          | error error =>
            right
            simp [accepts, ServerRequestState.record, pending, claimed, same, deferred, room]
          | ok =>
            left
            simp only [accepts, ServerRequestState.record, pending, claimed, same, deferred,
              room, Bool.false_eq_true, if_false, Option.isNone_none, true_and]
            exact .deferred behind deferred (ensureCapacity_ok room)
    | none =>
      cases room : state.ensureCapacity request.id with
      | error error =>
        right
        simp [accepts, ServerRequestState.record, pending, claimed, room]
      | ok =>
        left
        simp only [accepts, ServerRequestState.record, pending, claimed, room, true_and]
        refine .broadcast ?_ (ensureCapacity_ok room)
        rw [activeIds, List.mem_append]
        exact fun active => active.elim free (claimedFor_none.1 claimed)

/-- The response of a pending request begins, or nothing changes. -/
theorem begin_cases :
    ((state.beginResponse id occurrence).1 = .ok () ∧
      ∃ request ∈ state.pending.rows, ServerRequestKey.forRequest request = ⟨id, occurrence⟩ ∧
        state.claimed.find ⟨id, occurrence⟩ = none ∧
        (state.beginResponse id occurrence).2 = { state with
          pending := state.pending.remove id
          claimed := state.claimed.put ⟨request, .responding⟩ }) ∨
    ((state.beginResponse id occurrence).1 ≠ .ok () ∧
      (state.beginResponse id occurrence).2 = state) := by
  cases claimed : state.claimed.find ⟨id, occurrence⟩ with
  | some existing =>
    right
    simp [ServerRequestState.beginResponse, ServerRequestState.responseCandidate, claimed]
  | none =>
    cases found : state.pending.find id with
    | none =>
      right
      simp [ServerRequestState.beginResponse, ServerRequestState.responseCandidate, claimed, found]
    | some request =>
      by_cases same : request.occurrence = occurrence
      · left
        obtain ⟨there, own⟩ := Table.find_some_iff.1 found
        simp only [ServerRequestState.beginResponse, ServerRequestState.responseCandidate,
          claimed, found, same, ne_eq, not_true_eq_false, if_false, true_and]
        refine ⟨request, there, ?_, rfl⟩
        rw [ServerRequestKey.forRequest, own, same]
      · right
        simp [ServerRequestState.beginResponse, ServerRequestState.responseCandidate, claimed,
          found, same]

/-- A claimed request is resolved, and one that waits behind it takes its place. -/
theorem resolve_cases :
    (∃ claimed ∈ state.claimed.rows, claimed.key = ⟨id, occurrence⟩ ∧
      state.resolve id occurrence = (.ok (state.deferred.find id), {
        order := state.order.filter fun ordered => ordered ≠ ⟨id, occurrence⟩
        pending := (state.deferred.find id).elim state.pending state.pending.put
        claimed := state.claimed.remove ⟨id, occurrence⟩
        deferred := state.deferred.remove id })) ∨
    ((∀ promoted, (state.resolve id occurrence).1 ≠ .ok promoted) ∧
      (state.resolve id occurrence).2 = state) := by
  cases claimed : state.claimed.find ⟨id, occurrence⟩ with
  | none =>
    right
    simp [ServerRequestState.resolve, claimed]
  | some existing =>
    left
    obtain ⟨there, own⟩ := Table.find_some_iff.1 claimed
    exact ⟨existing, there, own, by simp [ServerRequestState.resolve, claimed]⟩

/-! ## What the operations keep -/

theorem Kept.mem_order (kept : Kept state) {key : ServerRequestKey} : key ∈ state.order ↔
    key ∈ pendingKeys state ∨ key ∈ claimedKeys state ∨ key ∈ deferredKeys state := by
  rw [kept.perm.mem_iff, List.mem_append, List.mem_append]

theorem Kept.record {result : Except ServerRequestRecordError ServerRequestRecordOutcome}
    (kept : Kept state) (new : ServerRequestKey.forRequest request ∉ state.order)
    (recorded : Recorded state request result next) : Kept next := by
  have distinct : (state.order ++ [ServerRequestKey.forRequest request]).Nodup :=
    List.nodup_append.2 ⟨kept.distinct, List.nodup_singleton _, by
      intro key there other here same
      rw [List.mem_singleton.1 here] at same
      exact new (same ▸ there)⟩
  cases recorded with
  | broadcast free room =>
    have unheld : state.pending.find request.id = none := by
      rw [Table.find_none_iff]
      intro other there same
      exact free (List.mem_append_left _ (List.mem_map.2 ⟨other, there, same⟩))
    have rows := Table.put_free unheld
    refine ⟨?_, distinct, ?_, ?_, kept.behind⟩
    · simp only [pendingKeys, claimedKeys, deferredKeys, rows, List.map_append, List.map_singleton,
        List.append_assoc]
      exact (List.perm_append_singleton _ _).trans
        ((kept.perm.cons _).trans List.perm_middle.symm)
    · simp only [List.length_append, List.length_singleton]
      omega
    · simp only [activeIds, rows, List.map_append, List.map_singleton, List.append_assoc]
      exact List.perm_middle.nodup_iff.2 (List.nodup_cons.2 ⟨free, kept.active⟩)
  | deferred behind free room =>
    have rows := Table.put_free free
    refine ⟨?_, distinct, ?_, kept.active, ?_⟩
    · simp only [pendingKeys, claimedKeys, deferredKeys, rows, List.map_append, List.map_singleton]
      have all := kept.perm.append_right [ServerRequestKey.forRequest request]
      simp only [pendingKeys, claimedKeys, deferredKeys, List.append_assoc] at all
      exact all
    · simp only [List.length_append, List.length_singleton]
      omega
    · intro other there
      rw [rows, List.mem_append, List.mem_singleton] at there
      obtain before | rfl := there
      · exact kept.behind other before
      · exact behind

theorem Kept.begin (kept : Kept state) (there : request ∈ state.pending.rows)
    (unclaimed : state.claimed.find (.forRequest request) = none) :
    Kept { state with
      pending := state.pending.remove request.id
      claimed := state.claimed.put ⟨request, .responding⟩ } := by
  have pending := Table.perm_remove there
  have rows : (state.claimed.put ⟨request, .responding⟩).rows =
      state.claimed.rows ++ [⟨request, .responding⟩] := Table.put_free unclaimed
  refine ⟨?_, kept.distinct, kept.capacity, ?_, ?_⟩
  · -- the request moves from one map to the next
    rw [List.perm_iff_count]
    intro key
    have before := kept.perm.count_eq key
    have moved := (pending.map ServerRequestKey.forRequest).count_eq key
    simp only [pendingKeys, claimedKeys, deferredKeys, rows, List.map_append, List.map_cons,
      List.map_nil, List.count_append, List.count_cons, List.count_nil,
      ClaimedServerRequest.key] at before moved ⊢
    omega
  · rw [List.nodup_iff_count_le_one]
    intro other
    have before := List.nodup_iff_count_le_one.1 kept.active other
    have moved := (pending.map (·.id)).count_eq other
    simp only [activeIds, rows, List.map_append, List.map_cons, List.map_nil, List.count_append,
      List.count_cons, List.count_nil] at before moved ⊢
    omega
  · intro other waiting
    rw [rows, List.map_append]
    exact List.mem_append_left _ (kept.behind other waiting)

/-- Marking a claim leaves its request alone. -/
theorem markIndeterminate_requests :
    (state.markIndeterminate id occurrence).claimed.rows.map (·.request) =
      state.claimed.rows.map (·.request) := by
  simp only [ServerRequestState.markIndeterminate, Table.update, List.map_map]
  refine List.map_congr_left fun claimed _ => ?_
  simp only [Function.comp_apply]
  split <;> rfl

theorem markIndeterminate_keys :
    claimedKeys (state.markIndeterminate id occurrence) = claimedKeys state := by
  have mapped := congrArg (List.map ServerRequestKey.forRequest)
    (@markIndeterminate_requests state id occurrence)
  simp only [List.map_map] at mapped
  exact mapped

theorem Kept.mark (kept : Kept state) : Kept (state.markIndeterminate id occurrence) := by
  have ids : (state.markIndeterminate id occurrence).claimed.rows.map (·.request.id) =
      state.claimed.rows.map (·.request.id) := by
    have mapped := congrArg (List.map ServerRequest.id)
      (@markIndeterminate_requests state id occurrence)
    simp only [List.map_map] at mapped
    exact mapped
  refine ⟨?_, kept.distinct, kept.capacity, ?_, ?_⟩
  · rw [markIndeterminate_keys]
    exact kept.perm
  · rw [activeIds, ids]
    exact kept.active
  · rw [ids]
    exact kept.behind

/-- A request that waits behind a claimed one is not pending. -/
theorem Kept.unpending {claimed : ClaimedServerRequest} (kept : Kept state)
    (there : claimed ∈ state.claimed.rows) : state.pending.find claimed.request.id = none := by
  rw [Table.find_none_iff]
  intro other pending same
  exact (List.nodup_append.1 kept.active).2.2 _ (List.mem_map.2 ⟨other, pending, rfl⟩) _
    (List.mem_map.2 ⟨claimed, there, rfl⟩) same

theorem Kept.resolve {claimed : ClaimedServerRequest} (kept : Kept state)
    (there : claimed ∈ state.claimed.rows) :
    Kept {
      order := state.order.filter fun ordered => ordered ≠ claimed.key
      pending := (state.deferred.find claimed.request.id).elim state.pending state.pending.put
      claimed := state.claimed.remove claimed.key
      deferred := state.deferred.remove claimed.request.id } := by
  have left := Table.perm_remove there
  have erased : (state.order.filter fun ordered => ordered ≠ claimed.key) =
      state.order.erase claimed.key := by
    rw [kept.distinct.erase_eq_filter]
    simp only [bne, ne_eq, decide_not]
    rfl
  have behind : ∀ other ∈ (state.deferred.remove claimed.request.id).rows,
      other.id ∈ (state.claimed.remove claimed.key).rows.map (·.request.id) := by
    intro other waiting
    obtain ⟨waiting, apart⟩ := Table.mem_remove.1 waiting
    obtain ⟨front, kept, same⟩ := List.mem_map.1 (kept.behind other waiting)
    refine List.mem_map.2 ⟨front, Table.mem_remove.2 ⟨kept, ?_⟩, same⟩
    intro key
    exact apart (same.symm.trans (congrArg ServerRequestKey.id key))
  have capacity := (List.length_filter_le (fun ordered => ordered ≠ claimed.key) state.order).trans
    kept.capacity
  cases found : state.deferred.find claimed.request.id with
  | none =>
    have gone : (state.deferred.remove claimed.request.id).rows = state.deferred.rows :=
      List.filter_eq_self.2 fun other waiting => by
        simp [Table.find_none_iff.1 found other waiting]
    refine ⟨?_, kept.distinct.filter _, capacity, ?_, behind⟩
    · rw [erased, List.perm_iff_count]
      intro key
      have before := kept.perm.count_eq key
      have moved := (left.map ClaimedServerRequest.key).count_eq key
      simp only [pendingKeys, claimedKeys, deferredKeys, gone, Option.elim_none, List.map_cons,
        List.count_append, List.count_cons, List.count_erase] at before moved ⊢
      omega
    · rw [List.nodup_iff_count_le_one]
      intro other
      have before := List.nodup_iff_count_le_one.1 kept.active other
      have moved := (left.map (·.request.id)).count_eq other
      simp only [activeIds, Option.elim_none, List.map_cons, List.count_append,
        List.count_cons] at before moved ⊢
      omega
  | some waiting =>
    obtain ⟨here, own⟩ := Table.find_some_iff.1 found
    have promoted := Table.perm_remove here
    have rows : (state.pending.put waiting).rows = state.pending.rows ++ [waiting] :=
      Table.put_free (own ▸ kept.unpending there)
    rw [own] at promoted
    refine ⟨?_, kept.distinct.filter _, capacity, ?_, behind⟩
    · rw [erased, List.perm_iff_count]
      intro key
      have before := kept.perm.count_eq key
      have moved := (left.map ClaimedServerRequest.key).count_eq key
      have taken := (promoted.map ServerRequestKey.forRequest).count_eq key
      simp only [pendingKeys, claimedKeys, deferredKeys, rows, Option.elim_some, List.map_append,
        List.map_cons, List.map_nil, List.count_append, List.count_cons, List.count_nil,
        List.count_erase] at before moved taken ⊢
      omega
    · rw [List.nodup_iff_count_le_one]
      intro other
      have before := List.nodup_iff_count_le_one.1 kept.active other
      have moved := (left.map (·.request.id)).count_eq other
      simp only [activeIds, rows, own, Option.elim_some, List.map_append, List.map_cons,
        List.map_nil, List.count_append, List.count_cons, List.count_nil] at before moved ⊢
      omega

end

end CodexRemote.Verified.ServerRequests

import CodexRemote.Foundations.Runs
import CodexRemote.Store.Mapping

/-! # A room is created once and belongs to one thread

What each call can do to the custody of one thread is said once; the story of a creation and the
uniqueness of rooms are read off that.
-/

namespace CodexRemote.Verified.Mapping

open Foundations Store Store.Mapping

/-! ## Steps -/

inductive MappingEvent where
  | begun (scope : CreationScope) (answer : Except StoreError String)
  | confirming (scope : CreationScope) (token : String) (channel : Int)
      (answer : Except StoreError Unit)
  | asked (scope : CreationScope) (answer : Except StoreError (Option Int))
  | committed (update : MirrorThreadUpdate) (expected : Option (Int × Int))
      (answer : Except StoreError Unit)
  | retired (thread : String) (channel : Int)
  | surrounded

namespace MappingEvent

def failed : MappingEvent → Bool
  | begun _ (.error _) | confirming _ _ _ (.error _) | asked _ (.error _) | committed _ _ (.error _) =>
    true
  | _ => false

/-- A successful `begin` for the thread -/
def claims (thread : String) : MappingEvent → Bool
  | begun scope (.ok _) => scope.thread = thread
  | _ => false

/-- A successful `confirm` for the thread, with its scope, its token and its room -/
def confirms (thread : String) : MappingEvent → Option (CreationScope × String × Int)
  | confirming scope token channel (.ok ()) =>
    if scope.thread = thread then some (scope, token, channel) else none
  | _ => none

/-- A successful commit for the thread -/
def maps (thread : String) : MappingEvent → Bool
  | committed update _ (.ok ()) => update.threadId = thread
  | _ => false

end MappingEvent

/-- One call, with any arguments; fences and projects change as they like, and a fault of the
database fails a call and rolls it back. -/
inductive MappingStep : MappingDb → MappingEvent → MappingDb → Prop where
  | begun {s t answer} (scope token) (call : begin scope token s = (answer, t)) :
      MappingStep s (.begun scope answer) t
  | confirming {s t answer} (scope token channel)
      (call : Mapping.confirm scope token channel s = (answer, t)) :
      MappingStep s (.confirming scope token channel answer) t
  | asked {s answer} (scope) (call : confirmed scope s = answer) :
      MappingStep s (.asked scope answer) s
  | committed {s t answer} (update expected) (call : commitThreadSync update expected s = (answer, t)) :
      MappingStep s (.committed update expected answer) t
  | committedNew {s t answer} (update expected projectKey)
      (call : commitNewThreadSync update expected projectKey s = (answer, t)) :
      MappingStep s (.committed update expected answer) t
  | retired {s} (thread channel updatedBefore) :
      MappingStep s (.retired thread channel) (retireThreadSync thread channel updatedBefore s).2
  | faulted {s} (event) (failed : event.failed = true) : MappingStep s event s
  | surrounded {s} (projects cleanup archive) : MappingStep s .surrounded
      { s with mirrorProjects := projects, cleanupFences := cleanup, archiveFences := archive }

/-! ## Calls that succeed -/

/-- The custody row of a creation -/
structure Names (record : CreationRecord) (scope : CreationScope) (token : String) : Prop where
  thread : record.thread = scope.thread
  token : record.token = token
  guild : record.guild = scope.guild
  parent : record.parent = scope.parent
  expected : (record.expectedParent, record.expectedChannel) = columns scope.expected

theorem columns_injective {a b : Option (Int × Int)} (same : columns a = columns b) : a = b := by
  cases a with
  | none =>
    cases b with
    | none => rfl
    | some pair => cases same
  | some pair =>
    cases b with
    | none => cases same
    | some other =>
      simp only [columns, Option.elim_some, Prod.mk.injEq, Option.some.injEq] at same
      exact congrArg some (Prod.ext same.1 same.2)

theorem checkScope_ok {record : CreationRecord} {scope : CreationScope} {done : Unit}
    (fine : checkScope record scope = .ok done) : record.guild = scope.guild ∧
      record.parent = scope.parent ∧
      (record.expectedParent, record.expectedChannel) = columns scope.expected := by
  rw [checkScope] at fine
  obtain ⟨same, fine⟩ := guard_ok.1 fine
  simpa [and_assoc] using same

theorem beginBody_ok {scope : CreationScope} {token answer : String} {s t : MappingDb}
    (result : beginBody scope token s = .ok (answer, t)) :
    answer = token ∧ load s scope.thread = none ∧ mapped s scope.thread = scope.expected ∧
      t.mirrorThreads = s.mirrorThreads ∧ ∃ record, Names record scope token ∧
        record.channel = none ∧ t.creations = s.creations.insertOrIgnore record := by
  rw [beginBody] at result
  split at result
  · cases result
  · next valid =>
    obtain ⟨free, result⟩ := guard_ok.1 result
    obtain ⟨_, _, result⟩ := bind_ok.1 result
    obtain ⟨_, result⟩ := guard_ok.1 result
    simp only at result
    split at result
    · cases result
    · obtain ⟨_, _, result⟩ := bind_ok.1 result
      obtain ⟨_, result⟩ := guard_ok.1 result
      cases result
      simp only [Bool.or_eq_true, decide_eq_true_eq, not_or, Bool.not_eq_true,
        Option.isSome_eq_false_iff, Option.isNone_iff_eq_none, Decidable.not_not] at free
      exact ⟨rfl, free.1, free.2, rfl, _, ⟨rfl, rfl, rfl, rfl, rfl⟩, rfl, rfl⟩

section Stored

variable (s : MappingDb) {scope : CreationScope} {token : String} {channel : Int}
  (positive : 0 < channel)

theorem load_storeChannel_ne {thread : String} (other : thread ≠ scope.thread) :
    load (s.storeChannel scope token channel positive) thread = load s thread := by
  apply Table.find_update_ne (CreationRecord.confirm_thread channel positive)
  intro row there
  simp [awaiting, there, other]

theorem load_storeChannel {record : CreationRecord} (stored : load s scope.thread = some record)
    (token_ : record.token = token) (attempted : record.phase = .attempted)
    (empty : record.channel = none) :
    load (s.storeChannel scope token channel positive) scope.thread =
      some (record.confirm channel positive) := by
  have thread_ : record.thread = scope.thread := Table.find_key stored
  have selected : awaiting scope token record = true := by
    simp [awaiting, thread_, token_, attempted, empty]
  have found : s.creations.find scope.thread = some record := stored
  rw [load, MappingDb.storeChannel, Table.find_update, found, Option.map_some, if_pos selected]

end Stored

theorem confirmBody_ok {scope : CreationScope} {token : String} {channel : Int} {s t : MappingDb}
    {done : Unit} (result : confirmBody scope token channel s = .ok (done, t)) :
    t.mirrorThreads = s.mirrorThreads ∧ (∀ thread, thread ≠ scope.thread → load t thread = load s thread) ∧
      ∃ (record : CreationRecord) (positive : 0 < channel), load s scope.thread = some record ∧
        Names record scope token ∧ record.channel = none ∧
        load t scope.thread = some (record.confirm channel positive) := by
  rw [confirmBody] at result
  split at result
  · cases result
  · next record stored =>
    obtain ⟨_, fine, result⟩ := bind_ok.1 result
    obtain ⟨guild, parent, expected⟩ := checkScope_ok fine
    split at result
    · next positive =>
      obtain ⟨own, result⟩ := guard_ok.1 result
      simp only at result
      split at result
      · cases result
      · obtain ⟨_, _, result⟩ := bind_ok.1 result
        obtain ⟨_, result⟩ := guard_ok.1 result
        cases result
        simp only [Bool.or_eq_true, decide_eq_true_eq, not_or, Bool.not_eq_true,
          Option.isSome_eq_false_iff, Option.isNone_iff_eq_none, ne_eq,
          Decidable.not_not] at own
        obtain ⟨⟨token_, attempted⟩, empty⟩ := own
        exact ⟨rfl, fun _ other => load_storeChannel_ne s positive other, record, positive,
          stored, ⟨Table.find_key stored, token_, guild, parent, expected⟩, empty,
          load_storeChannel s positive stored token_ attempted empty⟩
    · cases result

theorem mapped_put {s : MappingDb} {update : MirrorThreadUpdate} (thread : String) :
    mapped { s with mirrorThreads := s.mirrorThreads.put update.row } thread =
      if thread = update.threadId then some (update.parentId, update.channelId)
      else mapped s thread := by
  rw [mapped, Table.find_put]
  show (if update.threadId = thread then some update.row else _).map _ = _
  by_cases own : thread = update.threadId
  · rw [if_pos own.symm, if_pos own]
    rfl
  · rw [if_neg (Ne.symm own), if_neg own]
    rfl

theorem finishIn_ok {update : MirrorThreadUpdate} {expected : Option (Int × Int)}
    {original : Option CreationRecord} {s t : MappingDb}
    (result : finishIn update expected original s = .ok t) : load s update.threadId = original ∧
      t.mirrorThreads = s.mirrorThreads ∧ load t update.threadId = none ∧
      (∀ thread, thread ≠ update.threadId → load t thread = load s thread) ∧
      ∀ record, original = some record → record.phase = .confirmed ∧
        record.channel = some update.channelId ∧ record.parent = update.parentId ∧
        (record.expectedParent, record.expectedChannel) = columns expected := by
  unfold finishIn at result
  obtain ⟨same, result⟩ := guard_ok.1 result
  replace same := Decidable.not_not.1 same
  split at result
  · cases result
    exact ⟨same, rfl, same, fun _ _ => rfl,
      fun _ some_ => absurd some_ (Option.some_ne_none _).symm⟩
  · next record =>
    simp only at result
    obtain ⟨_, fine, result⟩ := bind_ok.1 result
    obtain ⟨guild, parent, columns_⟩ := checkScope_ok fine
    obtain ⟨_, _, result⟩ := bind_ok.1 result
    obtain ⟨own, result⟩ := guard_ok.1 result
    obtain ⟨gone, result⟩ := guard_ok.1 result
    obtain ⟨_, _, result⟩ := bind_ok.1 result
    cases result
    simp only [Bool.or_eq_true, decide_eq_true_eq, not_or, Bool.not_eq_true,
      Option.isSome_eq_false_iff, Option.isNone_iff_eq_none, ne_eq,
      Decidable.not_not] at own gone
    refine ⟨same, rfl, gone.1.2, fun thread other => ?_, ?_⟩
    · show Table.find _ thread = Table.find _ thread
      rw [Table.find_delete]
      cases stored : s.creations.find thread with
      | none => rfl
      | some row =>
        have named := Table.find_key stored
        simp [Option.filter, completed, named, other]
    · rintro _ ⟨⟩
      exact ⟨own.1.1, own.1.2, parent, columns_⟩

theorem commitChecked_ok {update : MirrorThreadUpdate} {expected : Option (Int × Int)}
    {project : Option (Option String)} {s t : MappingDb} {done : Unit}
    (result : commitChecked update expected project s = .ok (done, t)) :
    occupied update s = false ∧ mapped s update.threadId = expected ∧
      t.mirrorThreads = s.mirrorThreads.put update.row ∧ load t update.threadId = none ∧
      (∀ thread, thread ≠ update.threadId → load t thread = load s thread) ∧
      ∀ record, load s update.threadId = some record → record.phase = .confirmed ∧
        record.channel = some update.channelId ∧ record.parent = update.parentId ∧
        (record.expectedParent, record.expectedChannel) = columns expected := by
  rw [commitChecked] at result
  obtain ⟨_, result⟩ := guard_ok.1 result
  obtain ⟨vacant, result⟩ := guard_ok.1 result
  obtain ⟨found, result⟩ := guard_ok.1 result
  obtain ⟨_, _, result⟩ := bind_ok.1 result
  obtain ⟨next, finished, last⟩ := bind_ok.1 result
  cases last
  obtain ⟨_, written, gone, others, own⟩ := finishIn_ok finished
  exact ⟨Bool.eq_false_iff.2 vacant, Decidable.not_not.1 found, written, gone, others, own⟩

/-! ## What a step does to the custody of a thread -/

/-- The custody of one thread, before a step and after it. -/
inductive Touch (thread : String) (s t : MappingDb) : MappingEvent → Prop where
  | untouched {event} (same : load t thread = load s thread) (claims : event.claims thread = false)
      (confirms : event.confirms thread = none)
      (free : event.maps thread = true → load s thread = none) : Touch thread s t event
  | begun {scope token record} (named : scope.thread = thread) (free : load s thread = none)
      (found : mapped s thread = scope.expected) (stored : load t thread = some record)
      (names : Names record scope token) (empty : record.channel = none) :
      Touch thread s t (.begun scope (.ok token))
  | confirmed {scope token channel record} (positive : 0 < channel) (named : scope.thread = thread)
      (stored : load s thread = some record) (names : Names record scope token)
      (empty : record.channel = none)
      (now : load t thread = some (record.confirm channel positive)) :
      Touch thread s t (.confirming scope token channel (.ok ()))
  | mapped {update expected record} (named : update.threadId = thread)
      (stored : load s thread = some record) (room : record.channel = some update.channelId)
      (parent : record.parent = update.parentId)
      (columns_ : (record.expectedParent, record.expectedChannel) = columns expected)
      (gone : load t thread = none)
      (now : mapped t thread = some (update.parentId, update.channelId)) :
      Touch thread s t (.committed update expected (.ok ()))

/-- A failed call, whatever it was, touches nothing. -/
theorem Touch.failed {thread : String} {s t : MappingDb} {event : MappingEvent}
    (failed : event.failed = true) (same : load t thread = load s thread) :
    Touch thread s t event := by
  refine .untouched same ?_ ?_ ?_
  · cases event with
    | begun scope answer => cases answer <;> first | rfl | cases failed
    | _ => rfl
  · cases event with
    | confirming scope token channel answer => cases answer <;> first | rfl | cases failed
    | _ => rfl
  · cases event with
    | committed update expected answer => cases answer <;> intro maps <;> first | cases maps | cases failed
    | _ => exact nofun

theorem commit_touch {update : MirrorThreadUpdate} {expected : Option (Int × Int)}
    {project : Option (Option String)} {s t : MappingDb} {answer : Except StoreError Unit}
    (call : commit (commitChecked update expected project) s = (answer, t)) (thread : String) :
    Touch thread s t (.committed update expected answer) := by
  cases answer with
  | error error =>
    rw [commit_error call]
    exact .failed rfl rfl
  | ok done =>
    obtain ⟨_, _, written, gone, others, own⟩ := commitChecked_ok (commit_ok call)
    by_cases named : update.threadId = thread
    · subst named
      have now : mapped t update.threadId = some (update.parentId, update.channelId) := by
        rw [mapped, written]
        exact (mapped_put update.threadId).trans (if_pos rfl)
      cases stored : load s update.threadId with
      | none => exact .untouched (gone.trans stored.symm) rfl rfl fun _ => stored
      | some record =>
        obtain ⟨_, room, parent, columns_⟩ := own record stored
        exact .mapped rfl stored room parent columns_ gone now
    · refine .untouched (others thread (Ne.symm named)) rfl rfl fun maps => ?_
      exact absurd (of_decide_eq_true maps) named

theorem step_touch {s t : MappingDb} {event : MappingEvent} (step : MappingStep s event t)
    (thread : String) : Touch thread s t event := by
  cases step with
  | @begun _ answer scope token call =>
    cases answer with
    | error error =>
      rw [commit_error call]
      exact .failed rfl rfl
    | ok given =>
      obtain ⟨rfl, free, found, _, record, names, empty, added⟩ := beginBody_ok (commit_ok call)
      by_cases named : scope.thread = thread
      · subst named
        refine .begun rfl free found ?_ names empty
        have missing : s.creations.find scope.thread = none := free
        rw [load, added, Table.find_insertOrIgnore, if_pos names.thread, missing]
        rfl
      · refine .untouched ?_ (decide_eq_false named) rfl nofun
        rw [load, added, Table.find_insertOrIgnore, names.thread, if_neg named]
        rfl
  | @confirming _ answer scope token channel call =>
    cases answer with
    | error error =>
      rw [commit_error call]
      exact .failed rfl rfl
    | ok done =>
      obtain ⟨_, others, record, positive, stored, names, empty, now⟩ :=
        confirmBody_ok (commit_ok call)
      by_cases named : scope.thread = thread
      · subst named
        exact .confirmed positive rfl stored names empty now
      · exact .untouched (others thread (Ne.symm named)) rfl (if_neg named) nofun
  | asked scope call => exact .untouched rfl rfl rfl nofun
  | committed update expected call => exact commit_touch call thread
  | committedNew update expected projectKey call => exact commit_touch call thread
  | retired thread_ channel updatedBefore => exact .untouched rfl rfl rfl nofun
  | faulted event failed => exact .failed failed rfl
  | surrounded projects cleanup archive => exact .untouched rfl rfl rfl nofun

/-! ## The story of a creation -/

theorem Names.unique {record : CreationRecord} {a b : CreationScope} {x y : String}
    (left : Names record a x) (right : Names record b y) : a = b ∧ x = y := by
  refine ⟨?_, left.token.symm.trans right.token⟩
  have thread := left.thread.symm.trans right.thread
  have guild := left.guild.symm.trans right.guild
  have parent := left.parent.symm.trans right.parent
  have expected := columns_injective (left.expected.symm.trans right.expected)
  cases a
  cases b
  simp_all

theorem Names.confirm {record : CreationRecord} {scope : CreationScope} {token : String}
    {channel : Int} (positive : 0 < channel) (names : Names record scope token) :
    Names (record.confirm channel positive) scope token :=
  ⟨names.thread, names.token, names.guild, names.parent, names.expected⟩

/-- A creation that is not over: no other began, nothing was mapped, and the room in custody is
the one room that was confirmed since. -/
structure Custody (scope : CreationScope) (token : String) (events : List MappingEvent)
    (s : MappingDb) : Prop where
  held : ∃ record, load s scope.thread = some record ∧ Names record scope token ∧
    events.filterMap (MappingEvent.confirms scope.thread) =
      record.channel.toList.map fun channel => (scope, token, channel)
  begun : ∀ event ∈ events, event.claims scope.thread = false
  mapped : ∀ event ∈ events, event.maps scope.thread = false

/-- The commit that ended a creation -/
structure Ended (scope : CreationScope) (token : String) (front : List MappingEvent)
    (update : MirrorThreadUpdate) (before after : MappingDb) : Prop where
  custody : Custody scope token front before
  step : MappingStep before (.committed update scope.expected (.ok ())) after
  confirmed : .confirming scope token update.channelId (.ok ()) ∈ front
  thread : update.threadId = scope.thread
  parent : update.parentId = scope.parent
  removed : load after scope.thread = none
  now : mapped after scope.thread = some (scope.parent, update.channelId)

/-- A creation that began before `start` is in custody after the run of the events from there, or
the run mapped its one confirmed room. -/
def Claimed (scope : CreationScope) (token : String) (start : MappingDb)
    (events : List MappingEvent) (s : MappingDb) : Prop :=
  Custody scope token events s ∨ ∃ front update back before after,
    events = front ++ .committed update scope.expected (.ok ()) :: back ∧
      Run MappingStep start front before ∧ Run MappingStep after back s ∧
      Ended scope token front update before after

theorem confirms_some {thread : String} {event : MappingEvent} {scope : CreationScope}
    {token : String} {channel : Int}
    (same : event.confirms thread = some (scope, token, channel)) :
    event = .confirming scope token channel (.ok ()) := by
  cases event with
  | confirming scope_ token_ channel_ answer =>
    cases answer with
    | error error => cases same
    | ok done =>
      by_cases named : scope_.thread = thread
      · rw [MappingEvent.confirms, if_pos named] at same
        cases same
        rfl
      · rw [MappingEvent.confirms, if_neg named] at same
        cases same
  | _ => cases same

theorem step_claimed {scope : CreationScope} {token : String} {past : List MappingEvent}
    {event : MappingEvent} {start s t : MappingDb} (reached : Run MappingStep start past s)
    (step : MappingStep s event t) (custody : Custody scope token past s) :
    Claimed scope token start (past ++ [event]) t := by
  obtain ⟨record, stored, names, confirms⟩ := custody.held
  have member : ∀ {good : MappingEvent → Prop}, (∀ e ∈ past, good e) → good event →
      ∀ e ∈ past ++ [event], good e := by
    intro good earlier last e there
    obtain before | here := List.mem_append.1 there
    · exact earlier e before
    · rw [List.mem_singleton.1 here]
      exact last
  cases step_touch step scope.thread with
  | untouched same claims silent free =>
    -- a thread with a creation is mapped by the commit of that creation only
    have unmapped : event.maps scope.thread = false := by
      cases maps : event.maps scope.thread with
      | false => rfl
      | true =>
        rw [free maps] at stored
        cases stored
    refine .inl ⟨⟨record, same.trans stored, names, ?_⟩, member custody.begun claims,
      member custody.mapped unmapped⟩
    rw [List.filterMap_append, List.filterMap_cons, silent, List.filterMap_nil, List.append_nil]
    exact confirms
  | begun named free =>
    rw [stored] at free
    cases free
  | @confirmed scope_ token_ channel record_ positive named stored_ names_ empty now =>
    cases stored.symm.trans stored_
    obtain ⟨rfl, rfl⟩ := names.unique names_
    refine .inl ⟨⟨_, now, names.confirm positive, ?_⟩, member custody.begun rfl,
      member custody.mapped rfl⟩
    rw [empty] at confirms
    rw [List.filterMap_append, confirms, List.filterMap_cons, MappingEvent.confirms, if_pos rfl]
    rfl
  | @mapped update expected record_ named stored_ room parent columns_ gone now =>
    cases stored.symm.trans stored_
    -- the commit expects what the creation saw, and names the room in custody
    have expected_ := columns_injective (names.expected.symm.trans columns_)
    have parent_ := parent.symm.trans names.parent
    subst expected_
    refine .inr ⟨past, update, [], s, t, rfl, reached, .nil t,
      custody, step, ?_, named, parent_, gone, ?_⟩
    · have listed : (scope, token, update.channelId) ∈
          past.filterMap (MappingEvent.confirms scope.thread) := by
        rw [confirms, room]
        exact List.mem_singleton_self _
      obtain ⟨event, there, same⟩ := List.mem_filterMap.1 listed
      exact confirms_some same ▸ there
    · rw [now, parent_]

theorem Custody.start {scope : CreationScope} {token : String} {s : MappingDb}
    {record : CreationRecord} (stored : load s scope.thread = some record)
    (names : Names record scope token) (empty : record.channel = none) : Custody scope token [] s where
  held := by
    refine ⟨record, stored, names, ?_⟩
    rw [empty]
    rfl
  begun _ none_ := nomatch none_
  mapped _ none_ := nomatch none_

theorem run_claimed {scope : CreationScope} {token : String} {events : List MappingEvent}
    {s t : MappingDb} (run : Run MappingStep s events t) (start : Custody scope token [] s) :
    Claimed scope token s events t := by
  apply run.records (Claimed scope token s) ?_ (.inl start)
  intro past u event v reached step claimed
  -- once committed, later events only make the run after the commit longer
  obtain custody | ⟨front, update, back, before, after, rfl, first, last, ended⟩ := claimed
  · exact step_claimed reached step custody
  · exact .inr ⟨front, update, back ++ [event], before, after, by simp, first,
      last.append (.single step), ended⟩

/-! ## Rooms -/

/-- No two threads are mapped to one room. -/
def Apart (s : MappingDb) : Prop :=
  ∀ a ∈ s.mirrorThreads.rows, ∀ b ∈ s.mirrorThreads.rows,
    a.discordThreadId = b.discordThreadId → a.codexThreadId = b.codexThreadId

/-- What a step does to the mappings. -/
inductive Rewrite (s t : MappingDb) : MappingEvent → Prop where
  | same {event} (failed : event.failed = true → t.creations = s.creations)
      (unmapped : ∀ update expected, event ≠ .committed update expected (.ok ()))
      (rows : t.mirrorThreads = s.mirrorThreads) : Rewrite s t event
  | committed {update expected} (vacant : occupied update s = false)
      (found : mapped s update.threadId = expected)
      (rows : t.mirrorThreads = s.mirrorThreads.put update.row) :
      Rewrite s t (.committed update expected (.ok ()))
  | retired {thread channel} (gone) (rows : t.mirrorThreads = s.mirrorThreads.delete gone) :
      Rewrite s t (.retired thread channel)

theorem Rewrite.failed {s : MappingDb} {event : MappingEvent} (failed : event.failed = true) :
    Rewrite s s event := by
  refine .same (fun _ => rfl) ?_ rfl
  rintro update expected rfl
  cases failed

theorem commit_rewrite {update : MirrorThreadUpdate} {expected : Option (Int × Int)}
    {project : Option (Option String)} {s t : MappingDb} {answer : Except StoreError Unit}
    (call : commit (commitChecked update expected project) s = (answer, t)) :
    Rewrite s t (.committed update expected answer) := by
  cases answer with
  | error error =>
    rw [commit_error call]
    exact .failed rfl
  | ok done =>
    obtain ⟨vacant, found, written, _⟩ := commitChecked_ok (commit_ok call)
    exact .committed vacant found written

theorem step_rewrite {s t : MappingDb} {event : MappingEvent} (step : MappingStep s event t) :
    Rewrite s t event := by
  cases step with
  | @begun _ answer scope token call =>
    cases answer with
    | error error =>
      rw [commit_error call]
      exact .failed rfl
    | ok given =>
      obtain ⟨_, _, _, rows, _⟩ := beginBody_ok (commit_ok call)
      exact .same nofun nofun rows
  | @confirming _ answer scope token channel call =>
    cases answer with
    | error error =>
      rw [commit_error call]
      exact .failed rfl
    | ok done => exact .same nofun nofun (confirmBody_ok (commit_ok call)).1
  | asked scope call => exact .same (fun _ => rfl) nofun rfl
  | committed update expected call => exact commit_rewrite call
  | committedNew update expected projectKey call => exact commit_rewrite call
  | retired thread channel updatedBefore => exact .retired _ rfl
  | faulted event failed => exact .failed failed
  | surrounded projects cleanup archive => exact .same nofun nofun rfl

theorem step_apart {s t : MappingDb} {event : MappingEvent} (step : MappingStep s event t)
    (apart : Apart s) : Apart t := by
  cases step_rewrite step with
  | same _ _ rows =>
    rw [Apart, rows]
    exact apart
  | @committed update expected vacant found rows =>
    -- a row of another thread that names the room would have been seen by the check
    have foreign : ∀ row ∈ s.mirrorThreads.rows, row.discordThreadId = update.channelId →
        row.codexThreadId = update.threadId := by
      intro row there same
      have unlike := List.any_eq_false.1 vacant row there
      simpa [same] using unlike
    have old : ∀ row ∈ t.mirrorThreads.rows, row ≠ update.row → row ∈ s.mirrorThreads.rows := by
      intro row there other
      rw [rows] at there
      obtain ⟨before, _⟩ | new := Table.mem_put.1 there
      · exact before
      · exact absurd new other
    intro a there b here same
    by_cases left : a = update.row
    · by_cases right : b = update.row
      · rw [left, right]
      · rw [left] at same ⊢
        exact (foreign b (old b here right) same.symm).symm
    · by_cases right : b = update.row
      · rw [right] at same ⊢
        exact foreign a (old a there left) same
      · exact apart a (old a there left) b (old b here right) same
  | @retired thread channel gone rows =>
    intro a there b here
    rw [rows] at there here
    exact apart a (List.mem_of_mem_filter there) b (List.mem_of_mem_filter here)

theorem confirmed_some {scope : CreationScope} {room : Int} {s : MappingDb}
    (result : confirmed scope s = .ok (some room)) : mapped s scope.thread = scope.expected ∧
      ∃ record, load s scope.thread = some record ∧ Names record scope record.token ∧
        record.channel = some room := by
  rw [confirmed] at result
  split at result
  · cases result
  · next record stored =>
    obtain ⟨_, fine, result⟩ := bind_ok.1 result
    obtain ⟨guild, parent, expected⟩ := checkScope_ok fine
    obtain ⟨_, _, result⟩ := bind_ok.1 result
    obtain ⟨found, result⟩ := guard_ok.1 result
    obtain ⟨_, given⟩ | ⟨_, raised⟩ := ite_ok.1 result
    · exact ⟨Decidable.not_not.1 found, record, stored,
        ⟨Table.find_key stored, rfl, guild, parent, expected⟩, Except.ok.inj given⟩
    · cases raised

/-- A thread gets one room at a time: a creation that began ends only with the commit of the one
room that was confirmed for it, what is in custody is neither repeated nor replaced, commits find
the mapping they expect, no room serves two threads, and a failed call changes nothing. -/
theorem room_created_once {start r s t : MappingDb} {before after : List MappingEvent}
    {event : MappingEvent} (apart : Apart start) (earlier : Run MappingStep start before r)
    (step : MappingStep r event s) (later : Run MappingStep s after t) :
    (∀ scope token, event = .begun scope (.ok token) → Claimed scope token s after t) ∧
    (∀ thread record, load r thread = some record → event.claims thread = false ∧
      (record.channel = none → event.maps thread = false) ∧
      (record.channel.isSome → event.confirms thread = none ∧
        (load s thread = some record ∨ event.maps thread = true))) ∧
    (∀ scope room, event = .asked scope (.ok (some room)) →
      mapped r scope.thread = scope.expected ∧ ∃ record, load r scope.thread = some record ∧
        Names record scope record.token ∧ record.channel = some room) ∧
    (∀ update expected, event = .committed update expected (.ok ()) →
      mapped r update.threadId = expected) ∧
    Apart t ∧
    (event.failed = true → s.mirrorThreads = r.mirrorThreads ∧ s.creations = r.creations) := by
  refine ⟨?_, ?_, ?_, ?_, ?_, ?_⟩
  · rintro scope token rfl
    have touch := step_touch step scope.thread
    cases touch with
    | untouched _ claims => simp [MappingEvent.claims] at claims
    | begun _ _ _ stored names empty =>
      exact run_claimed later (.start stored names empty)
  · intro thread record stored
    cases step_touch step thread with
    | untouched same claims silent free =>
      refine ⟨claims, fun _ => ?_, fun _ => ⟨silent, .inl (same.trans stored)⟩⟩
      cases maps : event.maps thread with
      | false => rfl
      | true =>
        rw [free maps] at stored
        cases stored
    | begun _ free =>
      rw [stored] at free
      cases free
    | confirmed positive named stored_ names empty now =>
      cases stored.symm.trans stored_
      exact ⟨rfl, fun _ => rfl, fun known => by rw [empty] at known; cases known⟩
    | mapped named stored_ room =>
      cases stored.symm.trans stored_
      refine ⟨rfl, fun empty => ?_, fun _ => ⟨rfl, .inr (decide_eq_true named)⟩⟩
      rw [room] at empty
      cases empty
  · rintro scope room rfl
    cases step with
    | asked scope call => exact confirmed_some call
    | faulted event failed => cases failed
  · rintro update expected rfl
    cases step_rewrite step with
    | same _ unmapped _ => exact absurd rfl (unmapped update expected)
    | committed _ found _ => exact found
  · exact (earlier.append (.cons step later)).preserves Apart (fun _ _ _ => step_apart) apart
  · intro failed
    cases step_rewrite step with
    | same creations _ rows => exact ⟨rows, creations failed⟩
    | committed => cases failed
    | retired => cases failed

/-! A room is created, confirmed and mapped -/

def noMappings : MappingDb := ⟨.empty, .empty, .empty, .empty, .empty⟩

def newThread : CreationScope := ⟨"thread", 1, 2, none⟩

def roomTen : MirrorThreadUpdate := ⟨"thread", "project", "title", 2, 10, 0⟩

def creationBegun : MappingDb := (begin newThread "token" noMappings).2

def roomConfirmed : MappingDb := (Mapping.confirm newThread "token" 10 creationBegun).2

def roomMapped : MappingDb := (commitThreadSync roomTen none roomConfirmed).2

theorem room_ten_created : Apart roomMapped ∧ Claimed newThread "token" creationBegun
    [.confirming newThread "token" 10 (.ok ()), .committed roomTen none (.ok ())] roomMapped := by
  have apart : Apart noMappings := nofun
  have step : MappingStep noMappings (.begun newThread (.ok "token")) creationBegun :=
    .begun newThread "token" (Prod.ext (by decide +kernel) rfl)
  have later : Run MappingStep creationBegun
      [.confirming newThread "token" 10 (.ok ()), .committed roomTen none (.ok ())] roomMapped :=
    .cons (.confirming newThread "token" 10 (Prod.ext (by decide +kernel) rfl))
      (.single (.committed roomTen none (Prod.ext (by decide +kernel) rfl)))
  have outcome := room_created_once apart (.nil _) step later
  exact ⟨outcome.2.2.2.2.1, outcome.1 newThread "token" rfl⟩

end CodexRemote.Verified.Mapping

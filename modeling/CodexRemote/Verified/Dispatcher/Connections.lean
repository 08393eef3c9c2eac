import Mathlib.Data.List.Perm.Basic
import CodexRemote.Foundations.Runs
import CodexRemote.RemoteAgent.Dispatcher

/-! # Replacing a bridge connection

Tasks that begin connections, retire sessions, bind threads and activate sessions, one
lock section at a time.  An activation checks its connection in one section and installs
its session in another, so what it installs is current only if no begin_connection has
swept its project in between.
-/

namespace CodexRemote.Verified.Dispatcher

open Foundations RemoteAgent

/-! ## The lock sections -/

/-- Where a task stands: the section it runs next, with what it carries there. -/
inductive Task where
  | beginning (generation : Nat)
  | retiring
  | sweeping (generation : Option Nat) (left : List Nat)
  | swept (generation : Option Nat)
  | refused (message : String)
  | upserting (threadId : String)
  | replacing (previous : Option Nat)
  | upserted
  | activating (project : Nat) (requested : SessionActivation) (engines : Except String Unit)
  | checked (project : Nat) (requested : SessionActivation) (engines : Except String Unit)
  | activated (result : Except SessionError Unit)

/-- The dispatcher shared by the tasks.  A project is named by the order of its opening;
the map names one for each thread, and a task may still hold one that was replaced. -/
structure Bindings where
  connectionGeneration : Option Nat
  projects : List (String × Nat)
  opened : Nat
  slots : Nat → Option SessionActivation

def Bindings.values (bindings : Bindings) : List Nat := bindings.projects.map (·.2)

/-- `session.lock().await.take()` -/
def Bindings.take (bindings : Bindings) (project : Nat) : Bindings :=
  { bindings with slots := Function.update bindings.slots project none }

def Bindings.install (bindings : Bindings) (project : Nat) (session : SessionActivation) :
    Bindings :=
  { bindings with slots := Function.update bindings.slots project (some session) }

def Bindings.insert (bindings : Bindings) (threadId : String) : Bindings where
  connectionGeneration := bindings.connectionGeneration
  projects := (threadId, bindings.opened) :: bindings.projects.filter (·.1 ≠ threadId)
  opened := bindings.opened + 1
  slots := Function.update bindings.slots bindings.opened none

@[simp] theorem take_self (bindings : Bindings) (project : Nat) :
    (bindings.take project).slots project = none := Function.update_self ..

variable {project : Nat}

theorem take_other (bindings : Bindings) {other : Nat} (different : other ≠ project) :
    (bindings.take project).slots other = bindings.slots other := Function.update_of_ne different ..

@[simp] theorem install_self (bindings : Bindings) (project : Nat) (session : SessionActivation) :
    (bindings.install project session).slots project = some session := Function.update_self ..

theorem install_other (bindings : Bindings) (session : SessionActivation) {other : Nat}
    (different : other ≠ project) :
    (bindings.install project session).slots other = bindings.slots other :=
  Function.update_of_ne different ..

@[simp] theorem insert_self (bindings : Bindings) (threadId : String) :
    (bindings.insert threadId).slots bindings.opened = none := Function.update_self ..

theorem insert_other (bindings : Bindings) (threadId : String) {other : Nat}
    (different : other ≠ bindings.opened) :
    (bindings.insert threadId).slots other = bindings.slots other := Function.update_of_ne different ..

inductive Section : Task → Bindings → Task → Bindings → Prop where
  | begunRefused {bindings : Bindings} {generation : Nat} {message : String}
      (behind : beginConnection bindings.connectionGeneration generation = .error message) :
      Section (.beginning generation) bindings (.refused message) bindings
  | begun {bindings : Bindings} {generation : Nat} {current : Option Nat} {left : List Nat}
      (ahead : beginConnection bindings.connectionGeneration generation = .ok current)
      (all : left.Perm bindings.values) :
      Section (.beginning generation) bindings (.sweeping (some generation) left)
        { bindings with connectionGeneration := current }
  | retired {bindings : Bindings} {left : List Nat} (all : left.Perm bindings.values) :
      Section .retiring bindings (.sweeping none left)
        { bindings with connectionGeneration := none }
  | sweptOne {bindings : Bindings} {generation : Option Nat} {project : Nat} {left : List Nat} :
      Section (.sweeping generation (project :: left)) bindings (.sweeping generation left)
        (bindings.take project)
  | sweptAll {bindings : Bindings} {generation : Option Nat} :
      Section (.sweeping generation []) bindings (.swept generation) bindings
  | inserted {bindings : Bindings} {threadId : String} :
      Section (.upserting threadId) bindings (.replacing (bindings.projects.lookup threadId))
        (bindings.insert threadId)
  | replaced {bindings : Bindings} {project : Nat} :
      Section (.replacing (some project)) bindings .upserted (bindings.take project)
  | unreplaced {bindings : Bindings} : Section (.replacing none) bindings .upserted bindings
  | stale {bindings : Bindings} {project : Nat} {requested : SessionActivation}
      {engines : Except String Unit}
      (behind : connectionCurrent bindings.connectionGeneration requested.connectionGeneration =
        false) :
      Section (.activating project requested engines) bindings
        (.activated (.error .staleCommand)) bindings
  | current {bindings : Bindings} {project : Nat} {requested : SessionActivation}
      {engines : Except String Unit}
      (same : connectionCurrent bindings.connectionGeneration requested.connectionGeneration) :
      Section (.activating project requested engines) bindings
        (.checked project requested engines) bindings
  | declined {bindings : Bindings} {project : Nat} {requested : SessionActivation}
      {engines : Except String Unit} {error : SessionError}
      (decided : decideActivation (bindings.slots project) requested engines = .refused error) :
      Section (.checked project requested engines) bindings (.activated (.error error)) bindings
  | unchanged {bindings : Bindings} {project : Nat} {requested : SessionActivation}
      {engines : Except String Unit}
      (decided : decideActivation (bindings.slots project) requested engines = .unchanged) :
      Section (.checked project requested engines) bindings (.activated (.ok ())) bindings
  | installed {bindings : Bindings} {project : Nat} {requested session : SessionActivation}
      {engines : Except String Unit}
      (decided : decideActivation (bindings.slots project) requested engines = .install session) :
      Section (.checked project requested engines) bindings (.activated (.ok ()))
        (bindings.install project session)

/-! ## Concurrent tasks -/

structure Agent where
  bindings : Bindings
  tasks : List Task

def Agent.initial : Agent := ⟨⟨none, [], 0, fun _ => none⟩, []⟩

/-- The calls a task can start with.  An activation is given the project that its thread
is bound to. -/
inductive Starts (agent : Agent) : Task → Prop where
  | beginning (generation : Nat) : Starts agent (.beginning generation)
  | retiring : Starts agent .retiring
  | upserting (threadId : String) : Starts agent (.upserting threadId)
  | activating (threadId : String) (project : Nat) (requested : SessionActivation)
      (engines : Except String Unit) (bound : (threadId, project) ∈ agent.bindings.projects) :
      Starts agent (.activating project requested engines)

inductive SectionEvent where
  | started (task : Task)
  | advanced (index : Nat) (before after : Task)

inductive SectionStep : Agent → SectionEvent → Agent → Prop where
  | started {agent : Agent} {task : Task} (starts : Starts agent task) :
      SectionStep agent (.started task) { agent with tasks := agent.tasks ++ [task] }
  | advanced {agent : Agent} {index : Nat} {before after : Task} {bindings : Bindings}
      (here : agent.tasks[index]? = some before)
      (advances : Section before agent.bindings after bindings) :
      SectionStep agent (.advanced index before after) ⟨bindings, agent.tasks.set index after⟩

/-- A begin_connection has started: it has set its generation. -/
def SectionEvent.begins : SectionEvent → Bool
  | .advanced _ (.beginning _) (.sweeping _ _) => true
  | _ => false

def SectionEvent.retires : SectionEvent → Bool
  | .advanced _ .retiring _ => true
  | _ => false

/-- The begin_connection of task `index` has still to sweep `project`. -/
def ToSweep (index generation : Nat) (agent : Agent) (project : Nat) : Prop :=
  ∃ left, agent.tasks[index]? = some (.sweeping (some generation) left) ∧ project ∈ left

/-- A session that is installed while the begin_connection of task `index` is the latest
carries its generation, or that begin_connection has still to sweep the project. -/
def Prompt (index generation : Nat) (agent : Agent) : SectionEvent → Prop
  | .advanced _ (.checked project requested engines) _ =>
    decideActivation (agent.bindings.slots project) requested engines = .install requested →
      requested.connectionGeneration = some generation ∨ ToSweep index generation agent project
  | _ => True

/-- The steps between one begin_connection and the next. -/
structure PromptStep (index generation : Nat) (agent : Agent) (event : SectionEvent)
    (next : Agent) : Prop where
  step : SectionStep agent event next
  latest : event.begins = false
  prompt : Prompt index generation agent event

/-! ## Sessions behind the sweep -/

/-- The project that an activation works on. -/
def Works (project : Nat) : Task → Prop
  | .activating given _ _ | .checked given _ _ => given = project
  | _ => False

/-- The projects that matter to a connection: those bound to a thread, and those that
activations started since have been given. -/
def Seen (since : Nat) (agent : Agent) (project : Nat) : Prop :=
  project ∈ agent.bindings.values ∨
    ∃ index task, since ≤ index ∧ agent.tasks[index]? = some task ∧ Works project task

/-- What holds while the begin_connection of task `index` is the latest. -/
structure Sweeping (index generation since : Nat) (agent : Agent) : Prop where
  task : (∃ left, agent.tasks[index]? = some (.sweeping (some generation) left)) ∨
    agent.tasks[index]? = some (.swept (some generation))
  sessions : ∀ project active, Seen since agent project →
    agent.bindings.slots project = some active →
    active.connectionGeneration = some generation ∨ ToSweep index generation agent project

/-! ### What one section does -/

section OneSection

variable {before after : Task} {bindings bindings' : Bindings}

theorem Section.works (advances : Section before bindings after bindings')
    (works : Works project after) : Works project before := by
  cases advances with
  | current => exact works
  | _ => cases works

theorem Section.values (advances : Section before bindings after bindings')
    (bound : project ∈ bindings'.values) :
    project ∈ bindings.values ∨ bindings'.slots project = none := by
  cases advances with
  | @inserted _ threadId =>
    simp only [Bindings.values, Bindings.insert, List.map_cons, List.mem_cons] at bound
    cases bound with
    | inl fresh =>
      subst fresh
      exact .inr (insert_self bindings threadId)
    | inr old =>
      obtain ⟨entry, kept, rfl⟩ := List.mem_map.1 old
      exact .inl (List.mem_map.2 ⟨entry, (List.mem_filter.1 kept).1, rfl⟩)
  | _ => exact .inl bound

/-- A session that is active after a section was active before it, or the section is the
one that installed it. -/
theorem Section.slots (advances : Section before bindings after bindings')
    {active : SessionActivation} (found : bindings'.slots project = some active) :
    bindings.slots project = some active ∨
      ∃ engines, before = .checked project active engines ∧
        decideActivation (bindings.slots project) active engines = .install active := by
  have taken {other : Nat} (found : (bindings.take other).slots project = some active) :
      bindings.slots project = some active := by
    by_cases same : project = other
    · subst same
      rw [take_self] at found
      cases found
    · rwa [take_other _ same] at found
  cases advances with
  | sweptOne => exact .inl (taken found)
  | replaced => exact .inl (taken found)
  | inserted =>
    by_cases same : project = bindings.opened
    · subst same
      rw [insert_self] at found
      cases found
    · rw [insert_other _ _ same] at found
      exact .inl found
  | @installed _ given requested session engines decided =>
    obtain ⟨rfl, _⟩ := decide_install decided
    by_cases same : project = given
    · subst same
      rw [install_self] at found
      cases found
      exact .inr ⟨engines, rfl, decided⟩
    · rw [install_other _ _ same] at found
      exact .inl found
  | _ => exact .inl found

/-- Only a sweep moves a task that sweeps, and what it has not swept yet is still to be
swept. -/
theorem Section.sweep {generation : Option Nat} {left : List Nat}
    (advances : Section (.sweeping generation left) bindings after bindings') :
    (left = [] ∧ after = .swept generation ∧ bindings' = bindings) ∨
      ∃ project rest, left = project :: rest ∧ after = .sweeping generation rest ∧
        bindings' = bindings.take project := by
  cases advances with
  | sweptOne => exact .inr ⟨_, _, rfl, rfl, rfl⟩
  | sweptAll => exact .inl ⟨rfl, rfl, rfl⟩

end OneSection

/-! ### What one step keeps -/

theorem Sweeping.started {index generation since : Nat} {agent : Agent} {task : Task}
    (sweeping : Sweeping index generation since agent) (starts : Starts agent task) :
    Sweeping index generation since { agent with tasks := agent.tasks ++ [task] } := by
  have within : index < agent.tasks.length := by
    obtain ⟨left, here⟩ | here := sweeping.task
    · exact (List.getElem?_eq_some_iff.1 here).1
    · exact (List.getElem?_eq_some_iff.1 here).1
  have own : (agent.tasks ++ [task])[index]? = agent.tasks[index]? :=
    List.getElem?_append_left within
  have sweeps (project : Nat) : ToSweep index generation agent project →
      ToSweep index generation { agent with tasks := agent.tasks ++ [task] } project := by
    intro ⟨left, here, member⟩
    exact ⟨left, own.trans here, member⟩
  constructor
  · simp only [own]
    exact sweeping.task
  · intro project active seen found
    refine (sweeping.sessions project active ?_ found).imp_right (sweeps project)
    obtain bound | ⟨other, task', since', here, works⟩ := seen
    · exact .inl bound
    · rw [List.getElem?_append] at here
      split at here
      · exact .inr ⟨other, task', since', here, works⟩
      · rw [List.getElem?_singleton] at here
        split at here
        · cases here
          cases starts with
          | activating threadId given requested engines bound =>
            cases works
            exact .inl (List.mem_map.2 ⟨_, bound, rfl⟩)
          | _ => cases works
        · cases here

theorem Sweeping.advanced {index generation since moved : Nat} {agent : Agent}
    {before after : Task} {bindings : Bindings} (sweeping : Sweeping index generation since agent)
    (here : agent.tasks[moved]? = some before)
    (advances : Section before agent.bindings after bindings)
    (prompt : Prompt index generation agent (.advanced moved before after)) :
    Sweeping index generation since ⟨bindings, agent.tasks.set moved after⟩ := by
  have within : moved < agent.tasks.length := (List.getElem?_eq_some_iff.1 here).1
  have moves : (agent.tasks.set moved after)[moved]? = some after :=
    List.getElem?_set_self within
  have sweeps {project : Nat} {active : SessionActivation}
      (pending : ToSweep index generation agent project) (found : bindings.slots project = some active) :
      ToSweep index generation ⟨bindings, agent.tasks.set moved after⟩ project := by
    obtain ⟨left, there, member⟩ := pending
    by_cases own : moved = index
    · subst own
      rw [here] at there
      cases there
      obtain ⟨rfl, _⟩ | ⟨first, rest, rfl, rfl, rfl⟩ := advances.sweep
      · cases member
      · cases member with
        | head =>
          rw [take_self] at found
          cases found
        | tail _ later => exact ⟨rest, moves, later⟩
    · exact ⟨left, (List.getElem?_set_ne own).trans there, member⟩
  constructor
  · by_cases own : moved = index
    · subst own
      obtain ⟨left, there⟩ | there := sweeping.task
      · rw [here] at there
        cases there
        obtain ⟨_, rfl, _⟩ | ⟨_, rest, _, rfl, _⟩ := advances.sweep
        · exact .inr moves
        · exact .inl ⟨rest, moves⟩
      · -- a finished sweep has no section left
        rw [here] at there
        cases there
        cases advances
    · simp only [List.getElem?_set_ne own]
      exact sweeping.task
  · intro project active seen found
    have seenBefore : Seen since agent project := by
      obtain bound | ⟨other, task, since', there, works⟩ := seen
      · obtain old | gone := advances.values bound
        · exact .inl old
        · rw [gone] at found
          cases found
      · by_cases own : moved = other
        · subst own
          rw [moves] at there
          cases there
          exact .inr ⟨moved, before, since', here, advances.works works⟩
        · rw [List.getElem?_set_ne own] at there
          exact .inr ⟨other, task, since', there, works⟩
    obtain old | ⟨engines, rfl, decided⟩ := advances.slots found
    · obtain current | pending := sweeping.sessions project active seenBefore old
      · exact .inl current
      · exact .inr (sweeps pending found)
    · obtain current | pending := prompt decided
      · exact .inl current
      · exact .inr (sweeps pending found)

theorem PromptStep.sweeping {index generation since : Nat} {agent next : Agent}
    {event : SectionEvent} (step : PromptStep index generation agent event next)
    (sweeping : Sweeping index generation since agent) : Sweeping index generation since next := by
  obtain ⟨step, _, prompt⟩ := step
  cases step with
  | started starts => exact sweeping.started starts
  | advanced here advances => exact sweeping.advanced here advances prompt

/-- Every project that is bound when a begin_connection starts is to be swept by it. -/
theorem begun_sweeping {agent next : Agent} {index generation : Nat} {left : List Nat}
    (begun : SectionStep agent
      (.advanced index (.beginning generation) (.sweeping (some generation) left)) next) :
    Sweeping index generation next.tasks.length next ∧
      next.bindings.connectionGeneration = some generation := by
  cases begun with
  | advanced here advances =>
    have moves : (agent.tasks.set index (.sweeping (some generation) left))[index]? =
        some (.sweeping (some generation) left) :=
      List.getElem?_set_self (List.getElem?_eq_some_iff.1 here).1
    cases advances with
    | begun ahead all =>
      refine ⟨⟨.inl ⟨left, moves⟩, ?_⟩, ?_⟩
      · intro project active seen _
        obtain bound | ⟨other, task, since, there, _⟩ := seen
        · exact .inr ⟨left, moves, all.mem_iff.2 bound⟩
        · rw [List.getElem?_eq_none since] at there
          cases there
      · simp only [beginConnection] at ahead
        split at ahead
        · cases ahead
        · cases ahead
          rfl

/-- The generation of a begin_connection stands until the next one or a retirement. -/
theorem PromptStep.connection {index generation : Nat} {agent next : Agent}
    {event : SectionEvent} (step : PromptStep index generation agent event next)
    (kept : event.retires = false) :
    next.bindings.connectionGeneration = agent.bindings.connectionGeneration := by
  obtain ⟨step, latest, _⟩ := step
  cases step with
  | started => rfl
  | advanced here advances =>
    cases advances with
    | begun => cases latest
    | retired => cases kept
    | _ => rfl

/-! ## The connection in force -/

/-- Once the begin_connection of task `index` has swept all projects and while it is the
latest, every active session was opened under its generation, and an activation started
since under that generation is not refused as stale; not by the session it finds, and
not by its connection check unless the sessions were retired in between. -/
theorem connection_replaced {agent begun next : Agent} {index generation : Nat} {left : List Nat}
    {events : List SectionEvent} (begins : SectionStep agent
      (.advanced index (.beginning generation) (.sweeping (some generation) left)) begun)
    (run : Run (PromptStep index generation) begun events next)
    (completed : next.tasks[index]? = some (.swept (some generation))) :
    (∀ threadId project active, (threadId, project) ∈ next.bindings.projects →
      next.bindings.slots project = some active →
      active.connectionGeneration = some generation) ∧
    ∀ moved project requested engines after last, begun.tasks.length ≤ moved →
      requested.connectionGeneration = some generation →
      (SectionStep next (.advanced moved (.checked project requested engines) after) last →
        after ≠ .activated (.error .staleSession)) ∧
      (SectionStep next (.advanced moved (.activating project requested engines) after) last →
        (∀ event ∈ events, event.retires = false) → after = .checked project requested engines) := by
  obtain ⟨start, connection⟩ := begun_sweeping begins
  have sweeping : Sweeping index generation begun.tasks.length next :=
    run.preserves _ (fun _ _ _ step => step.sweeping) start
  have unswept (project : Nat) : ¬ToSweep index generation next project := by
    intro ⟨left, here, _⟩
    rw [completed] at here
    cases here
  have current {project : Nat} {active : SessionActivation}
      (seen : Seen begun.tasks.length next project)
      (found : next.bindings.slots project = some active) :
      active.connectionGeneration = some generation :=
    (sweeping.sessions project active seen found).resolve_right (unswept project)
  constructor
  · intro threadId project active bound found
    exact current (.inl (List.mem_map.2 ⟨_, bound, rfl⟩)) found
  · intro moved project requested engines after last since carried
    constructor
    · intro step
      cases step with
      | advanced here advances =>
        cases advances with
        | declined decided =>
          rintro ⟨⟩
          refine decide_not_stale ?_ decided
          intro active found
          exact (current (.inr ⟨moved, _, since, here, rfl⟩) found).trans carried.symm
        | unchanged => exact (nomatch ·)
        | installed => exact (nomatch ·)
    · intro step kept
      have stands : next.bindings.connectionGeneration = some generation := by
        refine (run.preserves_of (fun now => now.bindings.connectionGeneration =
          begun.bindings.connectionGeneration) (·.retires = false) ?_ kept rfl).trans connection
        exact fun _ _ _ kept step same => (step.connection kept).trans same
      cases step with
      | advanced here advances =>
        cases advances with
        | stale behind => simp [stands, carried, connectionCurrent] at behind
        | current => rfl

/-! ## An activation that is overtaken -/

def firstSession : SessionActivation := ⟨some 1, 1, "session-of-first", .project⟩

def secondSession : SessionActivation := ⟨some 2, 1, "session-of-second", .project⟩

/-- The first connection begins, a thread is bound, an activation passes its connection
check, and the second connection is asked for. -/
def overtakenEvents : List SectionEvent :=
  [.started (.beginning 1), .advanced 0 (.beginning 1) (.sweeping (some 1) []),
    .advanced 0 (.sweeping (some 1) []) (.swept (some 1)), .started (.upserting "a"),
    .advanced 1 (.upserting "a") (.replacing none), .advanced 1 (.replacing none) .upserted,
    .started (.activating 0 firstSession (.ok ())),
    .advanced 2 (.activating 0 firstSession (.ok ())) (.checked 0 firstSession (.ok ())),
    .started (.beginning 2)]

theorem overtaken_run : ∃ slots, slots 0 = none ∧ Run SectionStep Agent.initial overtakenEvents
    ⟨⟨some 1, [("a", 0)], 1, slots⟩, [.swept (some 1), .upserted,
      .checked 0 firstSession (.ok ()), .beginning 2]⟩ := by
  refine ⟨_, ?_, .cons (.started (.beginning 1))
    (.cons (.advanced rfl (.begun rfl (List.Perm.refl _))) (.cons (.advanced rfl .sweptAll)
    (.cons (.started (.upserting "a")) (.cons (.advanced rfl .inserted)
    (.cons (.advanced rfl .unreplaced)
    (.cons (.started (.activating "a" 0 firstSession (.ok ()) (List.mem_singleton.2 rfl)))
    (.cons (.advanced rfl (.current rfl)) (.cons (.started (.beginning 2)) (.nil _)))))))))⟩
  rfl

/-- The second connection sweeps the thread before the activation installs its session. -/
theorem old_session_behind_sweep :
    ¬∀ (before events : List SectionEvent) (agent begun next : Agent) (index generation : Nat)
      (left : List Nat), Run SectionStep Agent.initial before agent →
      SectionStep agent
        (.advanced index (.beginning generation) (.sweeping (some generation) left)) begun →
      Run SectionStep begun events next → (∀ event ∈ events, event.begins = false) →
      next.tasks[index]? = some (.swept (some generation)) →
      ∀ threadId project active, (threadId, project) ∈ next.bindings.projects →
        next.bindings.slots project = some active →
        active.connectionGeneration = some generation := by
  intro retired
  obtain ⟨slots, empty, run⟩ := overtaken_run
  have free : decideActivation (Function.update slots 0 none 0) firstSession (.ok ()) =
      .install firstSession := by
    rw [Function.update_self]
    rfl
  have behind := retired overtakenEvents
    [.advanced 3 (.sweeping (some 2) [0]) (.sweeping (some 2) []),
      .advanced 3 (.sweeping (some 2) []) (.swept (some 2)),
      .advanced 2 (.checked 0 firstSession (.ok ())) (.activated (.ok ()))] _ _ _ 3 2 [0] run
    (.advanced rfl (.begun rfl (List.Perm.refl _)))
    (.cons (.advanced rfl .sweptOne) (.cons (.advanced rfl .sweptAll)
      (.cons (.advanced rfl (.installed free)) (.nil _))))
    (by decide) rfl "a" 0 firstSession (List.mem_singleton.2 rfl) (install_self _ _ _)
  cases behind

/-- The second connection and an activation of its own. -/
theorem new_session_after_sweep :
    ∃ begun next events, Run (PromptStep 3 2) begun events next ∧
      next.bindings.slots 0 = some secondSession ∧
      secondSession.connectionGeneration = some 2 := by
  obtain ⟨slots, _, _⟩ := overtaken_run
  let tasks (sweep : Task) : List Task :=
    [.swept (some 1), .upserted, .checked 0 firstSession (.ok ()), sweep]
  have begins : SectionStep ⟨⟨some 1, [("a", 0)], 1, slots⟩, tasks (.beginning 2)⟩
      (.advanced 3 (.beginning 2) (.sweeping (some 2) [0]))
      ⟨⟨some 2, [("a", 0)], 1, slots⟩, tasks (.sweeping (some 2) [0])⟩ :=
    .advanced rfl (.begun rfl (List.Perm.refl _))
  have free : decideActivation (Function.update slots 0 none 0) secondSession (.ok ()) =
      .install secondSession := by
    rw [Function.update_self]
    rfl
  have run : Run (PromptStep 3 2) ⟨⟨some 2, [("a", 0)], 1, slots⟩, tasks (.sweeping (some 2) [0])⟩
      [.advanced 3 (.sweeping (some 2) [0]) (.sweeping (some 2) []),
        .advanced 3 (.sweeping (some 2) []) (.swept (some 2)),
        .started (.activating 0 secondSession (.ok ())),
        .advanced 4 (.activating 0 secondSession (.ok ())) (.checked 0 secondSession (.ok ())),
        .advanced 4 (.checked 0 secondSession (.ok ())) (.activated (.ok ()))] _ :=
    .cons ⟨.advanced rfl .sweptOne, rfl, trivial⟩ (.cons ⟨.advanced rfl .sweptAll, rfl, trivial⟩
      (.cons ⟨.started (.activating "a" 0 secondSession (.ok ()) (List.mem_singleton.2 rfl)),
        rfl, trivial⟩
      (.cons ⟨.advanced rfl (.current rfl), rfl, trivial⟩
      (.cons ⟨.advanced rfl (.installed free), rfl, fun _ => .inl rfl⟩ (.nil _)))))
  have active := install_self ⟨some 2, [("a", 0)], 1, Function.update slots 0 none⟩ 0 secondSession
  exact ⟨_, _, _, run, active, (connection_replaced begins run rfl).1 "a" 0 secondSession
    (List.mem_singleton.2 rfl) active⟩

end CodexRemote.Verified.Dispatcher

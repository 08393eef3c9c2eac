import CodexRemote.Store.AsyncQuestion.Dispatch
import CodexRemote.Verified.Queue.Inserts

/-! # What the operations on async questions do to one row

A question only moves forward: it is opened once, dispatched once, and ends once.  The identity
it was pinned with stays, and so does the answer that was chosen for it.
-/

namespace CodexRemote.Verified.AsyncQuestion

open Foundations Store Store.AsyncQuestion

variable {ρ : Type}

/-! ## Rows -/

/-- One transition of a question -/
inductive StateMove : QuestionState → QuestionState → Prop where
  | opened : StateMove .observed .opened
  | unsupported : StateMove .observed .unsupported
  | expired {state : QuestionState} (undispatched : state.undispatched = true) :
      StateMove state .expired
  | begun : StateMove .opened .dispatching
  | submitted : StateMove .dispatching .submitted
  | rejected : StateMove .dispatching .rejected

theorem StateMove.dispatched {a b : QuestionState} (move : StateMove a b)
    (dispatched : a.undispatched = false) : b.undispatched = false := by
  cases move with
  | opened | unsupported | begun => cases dispatched
  | expired undispatched =>
    rw [undispatched] at dispatched
    cases dispatched
  | submitted | rejected => rfl

/-- What a question was pinned with -/
structure SamePin (row later : QuestionRow) : Prop where
  id : later.id = row.id
  runtime : later.runtimeId = row.runtimeId
  generation : later.generation = row.generation
  thread : later.threadId = row.threadId
  turn : later.turnId = row.turnId
  item : later.itemId = row.itemId
  job : later.originJobId = row.originJobId
  channel : later.channelId = row.channelId
  owner : later.ownerUserId = row.ownerUserId

theorem SamePin.refl (row : QuestionRow) : SamePin row row :=
  ⟨rfl, rfl, rfl, rfl, rfl, rfl, rfl, rfl, rfl⟩

/-- The answer of a question and how it is dispatched -/
structure SameAnswer (row later : QuestionRow) : Prop where
  chosen : later.chosen = row.chosen
  text : later.answerText = row.answerText
  mode : later.dispatchMode = row.dispatchMode
  reply : later.replyJobId = row.replyJobId

theorem SameAnswer.refl (row : QuestionRow) : SameAnswer row row := ⟨rfl, rfl, rfl, rfl⟩

/-- The job of an answer is none, or the one that is named after its question. -/
def Filed (row : QuestionRow) : Prop :=
  row.replyJobId = none ∨ row.replyJobId = some (replyJob row.id)

/-- What one step does to a question: at most one transition, and the answer stays unless the
step is its dispatch.  A settlement elsewhere may close a steered answer. -/
inductive QuestionMove (begun settles : Bool) (row later : QuestionRow) : Prop where
  | kept (pin : SamePin row later) (answer : SameAnswer row later)
      (state : later.state = row.state ∨ StateMove row.state later.state)
      (undispatched : later.state = .dispatching → row.state = .dispatching)
  | dispatched (begins : begun = true) (pin : SamePin row later) (opened : row.state = .opened)
      (dispatching : later.state = .dispatching) (filed : Filed later)
  | closed (settled : settles = true) (steered : row.dispatchMode = some .steer)
    (dispatching : row.state = .dispatching) (same : later = { row with state := .closedUnknown })

theorem QuestionMove.refl (begun settles : Bool) (row : QuestionRow) : QuestionMove begun settles row row :=
  .kept (.refl row) (.refl row) (Or.inl rfl) fun same => same

variable {begun settles : Bool} {later row : QuestionRow} {changed : Nat} {db next : AsyncDb ρ}
  {hooks : QuestionHooks ρ} {id : String} {now : Rat}

theorem QuestionMove.pin (move : QuestionMove begun settles row later) : SamePin row later := by
  cases move with
  | kept pin => exact pin
  | dispatched _ pin => exact pin
  | closed _ _ _ same =>
    subst same
    constructor <;> rfl

/-- A question moves by one transition, or its steered answer is closed. -/
theorem QuestionMove.state (move : QuestionMove begun settles row later) :
    later.state = row.state ∨ StateMove row.state later.state ∨
      (settles = true ∧ row.dispatchMode = some .steer ∧ row.state = .dispatching ∧
        later.state = .closedUnknown) := by
  cases move with
  | kept _ _ state =>
    obtain same | moved := state
    · exact Or.inl same
    · exact Or.inr (Or.inl moved)
  | dispatched _ _ opened dispatching =>
    rw [opened, dispatching]
    exact Or.inr (Or.inl .begun)
  | closed settled steered dispatching same =>
    subst same
    exact Or.inr (Or.inr ⟨settled, steered, dispatching, rfl⟩)

theorem QuestionMove.undispatched
    (move : QuestionMove begun settles row later) (dispatched : row.state.undispatched = false) :
    later.state.undispatched = false := by
  obtain same | moved | ⟨_, _, _, closed⟩ := move.state
  · rw [same]
    exact dispatched
  · exact moved.dispatched dispatched
  · rw [closed]
    rfl

theorem QuestionMove.keepsAnswer
    (move : QuestionMove begun settles row later) (dispatched : row.state.undispatched = false) :
    SameAnswer row later := by
  cases move with
  | kept _ answer => exact answer
  | dispatched _ _ opened =>
    rw [opened] at dispatched
    cases dispatched
  | closed _ _ _ same =>
    subst same
    constructor <;> rfl

theorem QuestionMove.filed
    (move : QuestionMove begun settles row later) (filed : Filed row) : Filed later := by
  cases move with
  | kept pin answer =>
    rw [Filed, answer.reply, pin.id]
    exact filed
  | dispatched _ _ _ _ filed => exact filed
  | closed _ _ _ same =>
    subst same
    exact filed

/-- No question is lost, and each of them moves as above. -/
def QuestionsMove (begins : String → Bool) (settles : Bool) (db next : AsyncDb ρ) : Prop :=
  ∀ id row, db.questions.find id = some row →
    ∃ later, next.questions.find id = some later ∧ QuestionMove (begins id) settles row later

theorem QuestionsMove.of_same {begins : String → Bool} {settles : Bool} {db next : AsyncDb ρ}
    (same : next.questions = db.questions) : QuestionsMove begins settles db next :=
  fun _ row found => ⟨row, same ▸ found, .refl _ _ row⟩

/-! ## Updates of questions -/

theorem updateQuestions_ok {condition : QuestionRow → Bool} {assign : QuestionRow → QuestionRow}
    {keeps : ∀ r, (assign r).id = r.id}
    (result : updateQuestions hooks db condition assign keeps = .ok (changed, next)) :
    ∃ rest, next = { db with
      queue := { db.queue with rest := rest }
      questions := db.questions.update
        (fun r => condition r && !db.queue.archive.frozen .asyncQuestions r.id) assign keeps } := by
  unfold updateQuestions at result
  obtain ⟨rest, _, result⟩ := bind_ok.1 result
  cases result
  exact ⟨rest, rfl⟩

theorem QuestionsMove.of_update {begins : String → Bool} {settles : Bool} {hooks : QuestionHooks ρ} {db next : AsyncDb ρ}
    {condition : QuestionRow → Bool} {assign : QuestionRow → QuestionRow}
    {keeps : ∀ r, (assign r).id = r.id} {changed : Nat}
    (result : updateQuestions hooks db condition assign keeps = .ok (changed, next))
    (each : ∀ row, db.questions.find row.id = some row → condition row = true →
      QuestionMove (begins row.id) settles row (assign row)) : QuestionsMove begins settles db next := by
  obtain ⟨rest, rfl⟩ := updateQuestions_ok result
  intro id row found
  have named : row.id = id := Table.find_key found
  refine ⟨if condition row && !db.queue.archive.frozen .asyncQuestions row.id then assign row
    else row, by rw [Table.find_update, found]; rfl, ?_⟩
  split
  · next selected =>
    simp only [Bool.and_eq_true] at selected
    subst named
    exact each row found selected.1
  · exact .refl _ _ row

/-- What an update of questions leaves alone -/
structure QuestionsOnly (db next : AsyncDb ρ) : Prop where
  queue : ∃ rest, next.queue = { db.queue with rest := rest }
  inbox : next.inbox = db.inbox
  format : next.textFormat = db.textFormat
  absent : ∀ id, db.questions.find id = none → next.questions.find id = none

theorem QuestionsOnly.refl (db : AsyncDb ρ) : QuestionsOnly db db :=
  ⟨⟨db.queue.rest, rfl⟩, rfl, rfl, fun _ gone => gone⟩

theorem QuestionsOnly.of_update {hooks : QuestionHooks ρ} {db next : AsyncDb ρ}
    {condition : QuestionRow → Bool} {assign : QuestionRow → QuestionRow}
    {keeps : ∀ r, (assign r).id = r.id} {changed : Nat}
    (result : updateQuestions hooks db condition assign keeps = .ok (changed, next)) :
    QuestionsOnly db next := by
  obtain ⟨rest, rfl⟩ := updateQuestions_ok result
  refine ⟨⟨rest, rfl⟩, rfl, rfl, fun id gone => ?_⟩
  rw [Table.find_update, gone]
  rfl

theorem QuestionsOnly.jobs (only : QuestionsOnly db next) :
    next.queue.jobs = db.queue.jobs := by
  obtain ⟨rest, same⟩ := only.queue
  rw [same]

theorem QuestionsOnly.archive (only : QuestionsOnly db next) :
    next.queue.archive = db.queue.archive := by
  obtain ⟨rest, same⟩ := only.queue
  rw [same]

/-- An update whose condition names one question leaves the others as they are. -/
theorem update_others {condition : QuestionRow → Bool} {assign : QuestionRow → QuestionRow}
    {keeps : ∀ r, (assign r).id = r.id} (named : ∀ r, condition r = true → r.id = id)
    (result : updateQuestions hooks db condition assign keeps = .ok (changed, next)) :
    ∀ other, other ≠ id → next.questions.find other = db.questions.find other := by
  obtain ⟨rest, rfl⟩ := updateQuestions_ok result
  intro other different
  refine Table.find_update_ne keeps fun r same => ?_
  cases selected : condition r with
  | false => rfl
  | true => exact absurd (same.symm.trans (named r selected)) different

/-- The row of a question that is not recorded for an archived room is updated. -/
theorem update_row {condition : QuestionRow → Bool} {assign : QuestionRow → QuestionRow}
    {keeps : ∀ r, (assign r).id = r.id}
    (result : updateQuestions hooks db condition assign keeps = .ok (changed, next))
    (found : db.questions.find row.id = some row) (selected : condition row = true)
    (kept : db.queue.archive.recordRetired .asyncQuestions row.id = false) :
    next.questions.find row.id = some (assign row) := by
  obtain ⟨rest, rfl⟩ := updateQuestions_ok result
  have free : db.queue.archive.frozen .asyncQuestions row.id = false := by
    cases frozen : db.queue.archive.frozen .asyncQuestions row.id with
    | false => rfl
    | true =>
      rw [Archive.frozen_retired frozen] at kept
      cases kept
  show (db.questions.update _ assign keeps).find row.id = _
  rw [Table.find_update, found]
  simp [selected, free]

/-! ## Reading -/

theorem read_ok {q : Question}
    (result : read hooks db id = .ok q) : db.questions.find id = some q.row := by
  unfold AsyncQuestion.read at result
  split at result
  · cases result
  · next row found =>
    obtain ⟨_, result⟩ := guard_ok.1 result
    split at result
    · cases result
    · cases result
      exact found

theorem read_named {q : Question}
    (result : read hooks db id = .ok q) : q.row.id = id := Table.find_key (read_ok result)

theorem validateMapping_ok {q : Question} (result : validateMapping hooks db q = .ok ()) :
    db.queue.archive.recordRetired .asyncQuestions q.row.id = false := by
  unfold validateMapping at result
  obtain ⟨valid, _⟩ := guard_ok.1 result
  simp only [Bool.or_eq_true, not_or, Bool.not_eq_true] at valid
  exact valid.1.2

/-! ## Ownership, messages and retention -/

/-- A step that claims no answer and settles none -/
structure QuietMove (db next : AsyncDb ρ) : Prop where
  moves : QuestionsMove (fun _ => false) false db next
  only : QuestionsOnly db next

theorem QuestionsMove.of_quiet {begins : String → Bool}
    (quiet : QuietMove db next) : QuestionsMove begins settles db next := by
  intro id row found
  obtain ⟨later, after, move⟩ := quiet.moves id row found
  refine ⟨later, after, ?_⟩
  cases move with
  | kept pin answer state undispatched => exact .kept pin answer state undispatched
  | dispatched begins => cases begins
  | closed settled => cases settled

theorem ownerConfirmedIn_ok
    {answer : Bool} (result : ownerConfirmedIn hooks id db = .ok (answer, next)) :
    QuietMove db next := by
  unfold ownerConfirmedIn at result
  split at result
  · cases result
  · obtain ⟨_, result⟩ | ⟨_, result⟩ := ite_ok.1 result
    · cases result
      exact ⟨.of_same rfl, .refl db⟩
    · obtain ⟨current, _, result⟩ := bind_ok.1 result
      obtain ⟨confirmed, _, result⟩ := bind_ok.1 result
      obtain ⟨_, result⟩ | ⟨_, result⟩ := ite_ok.1 result
      · obtain ⟨⟨changed, written⟩, update, result⟩ := bind_ok.1 result
        cases result
        refine ⟨.of_update update fun row _ _ => ?_, .of_update update⟩
        exact .kept (by constructor <;> rfl) (by constructor <;> rfl) (Or.inl rfl) fun same => same
      · cases result
        exact ⟨.of_same rfl, .refl db⟩

theorem bindMessageIn_ok {message : String} {interactive : Bool} {answer : Unit}
    (result : bindMessageIn hooks id message interactive db = .ok (answer, next)) :
    QuietMove db next := by
  unfold bindMessageIn at result
  obtain ⟨⟨changed, written⟩, update, result⟩ := bind_ok.1 result
  cases result
  refine ⟨.of_update update fun row _ selected => ?_, .of_update update⟩
  simp only [Bool.and_eq_true, beq_iff_eq] at selected
  refine .kept (by constructor <;> rfl) (by constructor <;> rfl) (Or.inr ?_) ?_
  · show StateMove row.state (if interactive then .opened else .unsupported)
    rw [selected.2]
    cases interactive with
    | true => exact .opened
    | false => exact .unsupported
  · cases interactive with
    | true => rintro ⟨⟩
    | false => rintro ⟨⟩

theorem QuestionRow.expire_move {reason : String}
    (undispatched : row.state.undispatched = true) : QuestionMove begun settles row (row.expire reason now) :=
  .kept (by constructor <;> rfl) (by constructor <;> rfl) (Or.inr (.expired undispatched))
    fun dispatching => nomatch dispatching

theorem retireQuestionsIn_ok {runtime : String} {generation : Int}
    (result : retireQuestionsIn hooks runtime generation now db = .ok (changed, next)) :
    QuietMove db next := by
  refine ⟨.of_update result fun row _ selected => QuestionRow.expire_move ?_, .of_update result⟩
  simp only [Bool.and_eq_true] at selected
  exact selected.2

theorem supersedeIn_ok {runtime : String} {generation : Int} {thread turn : String}
    (result : supersedeIn hooks runtime generation thread turn now db = .ok (changed, next)) :
    QuietMove db next := by
  refine ⟨.of_update result fun row _ selected => QuestionRow.expire_move ?_, .of_update result⟩
  simp only [Bool.and_eq_true] at selected
  exact selected.2

theorem compactQuestionsIn_ok (result : compactQuestionsIn hooks now db = .ok (changed, next)) :
    QuietMove db next :=
  ⟨.of_update result fun row _ _ =>
    .kept (by constructor <;> rfl) (by constructor <;> rfl) (Or.inl rfl) fun same => same, .of_update result⟩

theorem recordErrorIn_ok {error : String} {answer : Unit}
    (result : recordErrorIn hooks id error now db = .ok (answer, next)) :
    QuietMove db next := by
  unfold recordErrorIn at result
  obtain ⟨⟨changed, written⟩, update, result⟩ := bind_ok.1 result
  cases result
  exact ⟨.of_update update fun row _ _ =>
    .kept (by constructor <;> rfl) (by constructor <;> rfl) (Or.inl rfl) fun same => same,
    .of_update update⟩

end CodexRemote.Verified.AsyncQuestion

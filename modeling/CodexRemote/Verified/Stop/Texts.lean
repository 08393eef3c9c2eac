import CodexRemote.Foundations.Encodings
import CodexRemote.Store.Ingress.Stop

/-! # Texts that read back

The laws that the stops ask of their texts hold of a plain encoding of a job.
-/

namespace CodexRemote.Verified.Stop

open Foundations Store

def wordState (word : List Char) : QueueJobState :=
  if word = "Starting".toList then .starting
  else if word = "Running".toList then .running
  else if word = "Quarantined".toList then .quarantined
  else .pending

theorem wordState_name (state : QueueJobState) : wordState state.name.toList = state := by
  cases state <;> decide

def boolWord (value : Bool) : List Char := if value then ['y'] else []

def jobWords (job : StoredQueueJob) : List (List Char) :=
  [job.jobId.toList, job.targetThreadId.toList, intWord job.channelId,
    optionWord (job.ownerUserId.map intWord), optionWord (job.discordMessageId.map intWord),
    intWord job.appServerGeneration, optionWord (job.executionGeneration.map intWord),
    optionWord (job.turnObservationGeneration.map intWord), boolWord job.goalWaiting,
    job.prompt.toList, boolWord job.queued, boolWord job.ackSent, job.state.name.toList,
    intWord job.attemptCount, optionWord (job.turnId.map String.toList), job.lastError.toList] ++
    job.baselineTurnIds.map String.toList

/-- The job of these words; the times are not among them. -/
def wordsJob : List (List Char) → Option StoredQueueJob
  | jobId :: target :: channel :: owner :: message :: generation :: execution :: observation ::
      goal :: prompt :: queued :: ack :: state :: attempts :: turn :: error :: baseline =>
      some
        { jobId := String.ofList jobId
          targetThreadId := String.ofList target
          channelId := wordInt channel
          ownerUserId := (wordOption owner).map wordInt
          discordMessageId := (wordOption message).map wordInt
          appServerGeneration := wordInt generation
          executionGeneration := (wordOption execution).map wordInt
          turnObservationGeneration := (wordOption observation).map wordInt
          goalWaiting := !goal.isEmpty
          prompt := String.ofList prompt
          queued := !queued.isEmpty
          ackSent := !ack.isEmpty
          state := wordState state
          attemptCount := wordInt attempts
          turnId := (wordOption turn).map String.ofList
          baselineTurnIds := baseline.map String.ofList
          lastError := String.ofList error
          createdAt := 0
          updatedAt := 0 }
  | _ => none

theorem map_wordInt (value : Option Int) : (value.map intWord).map wordInt = value := by
  cases value <;> simp [wordInt_intWord]

theorem boolWord_isEmpty (value : Bool) : (!(boolWord value).isEmpty) = value := by
  cases value <;> rfl

theorem map_ofList (texts : List String) :
    (texts.map String.toList).map String.ofList = texts := by
  simp

theorem wordsJob_jobWords (job : StoredQueueJob) :
    wordsJob (jobWords job) = some { job with createdAt := 0, updatedAt := 0 } := by
  have turn : (job.turnId.map String.toList).map String.ofList = job.turnId := by
    cases job.turnId <;> simp
  simp only [jobWords, List.cons_append, List.nil_append, wordsJob, wordInt_intWord,
    wordOption_optionWord, map_wordInt, boolWord_isEmpty, wordState_name, String.ofList_toList,
    map_ofList, turn]

def plainText (job : StoredQueueJob) : String := String.ofList (joinWords (jobWords job))

/-- Texts of jobs, and one other text -/
def plainParse (name : String) (other : Json) (text : String) : Option Json :=
  if text = name then some other else (wordsJob (splitWords text.toList)).map StoredQueueJob.value

theorem plainParse_plainText {name : String} (other : Json)
    (apart : wordsJob (splitWords name.toList) = none) (job : StoredQueueJob) :
    plainParse name other (plainText job) =
      some { job with createdAt := 0, updatedAt := 0 }.value := by
  have words : splitWords (plainText job).toList = jobWords job := by
    rw [plainText, String.toList_ofList, splitWords_joinWords]
  rw [plainParse, if_neg, words, wordsJob_jobWords, Option.map_some]
  intro same
  rw [← same, words, wordsJob_jobWords] at apart
  cases apart

/-! ## Other modules that check and write nothing -/

def quietQueue : QueueHooks (StopTables Unit) where
  fenceUpdate _ _ _ := none
  fenceInsert _ _ := none
  fenceDelete _ _ := none
  fenceIntakeUpdate _ _ _ := none
  fenceIntakeInsert _ _ := none
  fenceIntakeDelete _ _ := none
  fenceIngress _ _ _ := none
  fenceNotice _ _ := none
  asyncAdmission _ _ := .ok ()
  asyncDispatchHeld _ _ := false
  beforeEnqueue db _ := .ok db.rest
  bindRunning db _ := .ok db.rest
  recordJobOrigin db _ := .ok db.rest
  bindLateStart db _ _ _ := .ok db.rest
  stageStartNotice db _ _ := .ok db.rest
  newExecutionPrompt row := .ok row.newCommandPrompt
  promoteNewReply db _ _ _ := .ok db.rest
  recordRecovery db _ _ _ _ _ := .ok db.rest
  sha256Hex text := text
  jobJson job := job.jobId
  requestEvidence _ _ := ""
  ingressEvidence row := row.ingressId

/-- The other text is that of the given notification. -/
def quietStops (notice : Json) : StopHooks Unit where
  queue := quietQueue
  render _ := ""
  jobText := plainText
  parse := plainParse "notice" notice
  parse_jobText job := ⟨0, 0, plainParse_plainText notice (by decide +kernel) job⟩
  settleStopped _ _ _ _ _ _ := .ok ()
  observationAllowed _ _ _ _ _ _ := .ok true
  recordResponse _ _ _ _ _ _ := .ok ()
  bindRunning_keeps _ _ _ result := ⟨(), (Except.ok.inj result).symm⟩
  recordJobOrigin_keeps _ _ _ result := ⟨(), (Except.ok.inj result).symm⟩

end CodexRemote.Verified.Stop

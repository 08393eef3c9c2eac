import Mathlib.Data.List.Basic
import Mathlib.Tactic.Ring

/-! # Store errors -/

namespace CodexRemote.Store

/-- An `f64` from a caller: a finite number, or none for a NaN or an infinity. -/
abbrev Timestamp := Option Rat

/-- The errors of the store that the modelled operations raise. -/
inductive StoreError where
  | integrity (reason : String)
  | requestCancelled (jobId : String)
  | deadGenerationTargetHeld (target : String)
  | asyncResolutionHeld (threadId reason : String)
  | asyncQuestionPendingWork
  | deliveryNotFound (deliveryId : String)
  | queueJobNotFound (jobId : String)
  | mirrorMappingChanged (discordChannelId : Int) (expectedTargetThreadId : String)
      (actualTargetThreadId : Option String)
  | forkHandoffUnresolved (targetThreadId : String) (lastError : Option String)
  | forkHandoffTargetMoved (sourceThreadId targetThreadId : String)
  | forkHandoffCycle (sourceThreadId : String)
  | invalidAppServerManagedTarget (target : String)
  | promptIntakeNotFound (jobId : String)
  | invalidPromptIntakeIdentity (jobId targetThreadId : String)
  | promptIntakeIdentityConflict (jobId : String) (discordMessageId : Option Int)
  | promptIntakeClaimLost (jobId : String)
  | invalidPromptIntakeLease (now claimExpiresAt : Timestamp)
  | invalidPromptIntakeRetry (retryAfter : Timestamp)
  | busyChoiceUnavailable (choiceId : String)
  | queueJobHasNoTurn (jobId : String)
  | invalidQueueState (state : String)
  | database (reason : String)
  | json (reason : String)
  | io (reason : String)
deriving DecidableEq, Repr

end CodexRemote.Store

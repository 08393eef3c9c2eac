import CodexRemote.Verified.AsyncQuestion.Once
import CodexRemote.Verified.Bridge
import CodexRemote.Verified.Broker.FailedSelection
import CodexRemote.Verified.Broker.Reregistration
import CodexRemote.Verified.BusyQueue
import CodexRemote.Verified.Cancellation.Fence
import CodexRemote.Verified.Checkpoints.Applied
import CodexRemote.Verified.Checkpoints.SingleFault
import CodexRemote.Verified.CompletionPaging
import CodexRemote.Verified.Components.RoundTrip
import CodexRemote.Verified.Delivery.WholeText
import CodexRemote.Verified.DeliveryIdentity
import CodexRemote.Verified.Dispatcher.Connections
import CodexRemote.Verified.Dispatcher.Replay
import CodexRemote.Verified.EnvFile
import CodexRemote.Verified.ForkHandoff.History
import CodexRemote.Verified.ForkHandoff.Routes
import CodexRemote.Verified.GatewayDrain
import CodexRemote.Verified.GatewayIngress.Publication
import CodexRemote.Verified.GitDiff
import CodexRemote.Verified.HistoryGap
import CodexRemote.Verified.HistoryPoll
import CodexRemote.Verified.IdleRelease.Admission
import CodexRemote.Verified.Mapping
import CodexRemote.Verified.MessageChunks
import CodexRemote.Verified.MessagePlan
import CodexRemote.Verified.MetadataRound
import CodexRemote.Verified.MutationAttempts.Exclusion
import CodexRemote.Verified.OAuthProvider.Attempts
import CodexRemote.Verified.OAuthProvider.ClientIsolation
import CodexRemote.Verified.OAuthStore.Replay
import CodexRemote.Verified.ObservationGap
import CodexRemote.Verified.ObservationLatch
import CodexRemote.Verified.Queue.AmbiguousHold
import CodexRemote.Verified.Queue.Completion
import CodexRemote.Verified.ReadySelection
import CodexRemote.Verified.ReadyShape
import CodexRemote.Verified.Redaction
import CodexRemote.Verified.Resident
import CodexRemote.Verified.ServerRequests.Custody
import CodexRemote.Verified.SessionTail
import CodexRemote.Verified.SourceDriver
import CodexRemote.Verified.Stop.Final
import CodexRemote.Verified.StopAcceptance.OwnWork

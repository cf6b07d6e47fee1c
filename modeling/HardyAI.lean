import HardyAI.Accelerator.LeaseRuns
import HardyAI.Core.ApprovedActionExecution
import HardyAI.Core.DispatchOnce
import HardyAI.Core.EffectReplay
import HardyAI.Email.SyncCompleteness
import HardyAI.Email.SyncLeases
import HardyAI.Email.TargetBinding
import HardyAI.Foundation.Instant
import HardyAI.Foundation.Json
import HardyAI.Foundation.Sha256
import HardyAI.Foundation.Table
import HardyAI.Foundation.Text
import HardyAI.Foundation.Trace
import HardyAI.Foundation.Transaction
import HardyAI.Jobs.LeaseFencing
import HardyAI.Jobs.LedgerInvariant
import HardyAI.Jobs.Repository
import HardyAI.Jobs.RowCases
import HardyAI.Jobs.Runs
import HardyAI.Jobs.Types
import HardyAI.Reviews.ProposalCases
import HardyAI.Reviews.Repository
import HardyAI.Reviews.Runs
import HardyAI.Reviews.Service
import HardyAI.Reviews.Types
import HardyAI.Services.TurnService
import HardyAI.Tasks.EffectReceipts
import HardyAI.Tasks.StaleWriters
import HardyAI.Tasks.SteeringFence
import HardyAI.Tasks.TaskLifecycle
import HardyAI.Tickets.AsyncReceipts
import HardyAI.Tickets.ReviewSoundness
import HardyAI.Tickets.Transitions
import HardyAI.Tickets.WorkerRounds
import HardyAI.Documents.Visibility
import HardyAI.Documents.RunFences
import HardyAI.Skills.CanonicalForm
import HardyAI.Skills.ArgumentNormalForm
import HardyAI.Lists.BackendAgreement
import HardyAI.Lists.Names
import HardyAI.Skills.DescriptorStorage
import HardyAI.Core.PartialArguments
import HardyAI.Skills.OperationKeys
import HardyAI.Skills.AuthorizedExecutor
import HardyAI.CalendarInbox.LeaseSafety
import HardyAI.Tasks.ScriptRunSafety
import HardyAI.Jobs.IsoTimes
import HardyAI.Reviews.DecisionReplay
import HardyAI.Reviews.AppliedDecisions
import HardyAI.Core.ConditionalApproval
import HardyAI.Core.EffectCounts
import HardyAI.Core.ShownObservations
import HardyAI.Core.TransferFields
import HardyAI.Jobs.Requeue
import HardyAI.Jobs.Cancellation
import HardyAI.Core.AnswerLinks
import HardyAI.PrivateNotes.Delivery
import HardyAI.Email.UserStates
import HardyAI.Tickets.StoredManifests
import HardyAI.Tickets.OutcomeRecords
import HardyAI.Email.ReferenceOrder
import HardyAI.Email.QueryNormalForm
import HardyAI.Email.SpamRequests
import HardyAI.Email.MailboxOutcomes
import HardyAI.Email.LocalIntervals
import HardyAI.Email.MessageFilters
import HardyAI.PrivateNotes.MessageParts
import HardyAI.Tasks.DockerLogs
import HardyAI.Tasks.StoredResults
import HardyAI.Core.SessionStore
import HardyAI.Accelerator.ChatPayload
import HardyAI.Core.Provenance
import HardyAI.Context.PendingRuns
import HardyAI.Context.TurnRuns
import HardyAI.Tasks.QueueRecovery
import HardyAI.Tasks.ModelMessages

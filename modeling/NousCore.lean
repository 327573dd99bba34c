import NousCore.Access.Overrides
import NousCore.Agent.Separable
import NousCore.Agent.TurnOrder
import NousCore.Agent.Witnessed
import NousCore.Artifacts.RoundTrip
import NousCore.Backlog.Released
import NousCore.CommunicationGateway.AtMostOnce
import NousCore.Cost.Ceilings
import NousCore.Cost.PausesRefused
import NousCore.Cost.Roots
import NousCore.Distillation.Reversal
import NousCore.EndpointTrust.Transport
import NousCore.Inference.LaneRuns
import NousCore.Ingress.OneRun
import NousCore.Knowledge.Leakage
import NousCore.Knowledge.Serialised
import NousCore.Memory.Audit
import NousCore.Memory.Placement
import NousCore.Opctl.Effective
import NousCore.Opctl.Replay
import NousCore.Opctl.ScopeLock
import NousCore.Packages.InstallTrace
import NousCore.Packages.ResolutionSound
import NousCore.Providers.Messages
import NousCore.Providers.ThinkTags
import NousCore.PublicMcp.Limits
import NousCore.PublicMcp.Settled
import NousCore.PublicMcp.SourceIsolation
import NousCore.Recovery.Chain
import NousCore.Registry.Moderation
import NousCore.Retrieval.Budget
import NousCore.Scheduler.CronExact
import NousCore.Scheduler.Occurrence
import NousCore.Stm.Compaction
import NousCore.Stm.NothingLost
import NousCore.Vault.Purge
import NousCore.Vault.Separate
import NousCore.VoiceControl.Confirmed
import NousCore.Witness.Authorized
import NousCore.Witness.Concurrent
import NousCore.Witness.Forks
import NousCore.Witness.Serialization
import NousCore.Workflow.CompletionPaths
import NousCore.Workflow.DeadEnds
import NousCore.Workflow.ErrorHandlers
import NousCore.Workflow.HarnessFailures
import NousCore.Workflow.LoopBodies
import NousCore.Workflow.Progress
import NousCore.Workflow.Readiness
import NousCore.Workflow.ResumeToken
import NousCore.Workflow.Spec

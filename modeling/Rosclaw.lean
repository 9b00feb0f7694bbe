import Rosclaw.Lib.Machine
import Rosclaw.Lib.Dict
import Rosclaw.Lib.PyVal
import Rosclaw.Lib.DateTime
import Rosclaw.Kernel.Contracts
import Rosclaw.Kernel.Receipt
import Rosclaw.Kernel.ActionGateway
import Rosclaw.Daemon.Ledger
import Rosclaw.Daemon.Permits
import Rosclaw.Daemon.PermitLaws
import Rosclaw.Daemon.PermitRestore
import Rosclaw.Daemon.LedgerChain
import Rosclaw.Operator.Store
import Rosclaw.Operator.Proposals
import Rosclaw.Operator.GrantLaws
import Rosclaw.Daemon.SessionManager
import Rosclaw.Daemon.ActionJob
import Rosclaw.Daemon.State
import Rosclaw.Daemon.RunAction
import Rosclaw.Daemon.ControlPlane
import Rosclaw.Daemon.Moves
import Rosclaw.Daemon.Lifecycle
import Rosclaw.Daemon.Runs
import Rosclaw.Daemon.Dispatch
import Rosclaw.Daemon.Supervision
import Rosclaw.Daemon.WorkerProcesses
import Rosclaw.Daemon.GatewayCalls
import Rosclaw.Lib.Threads
import Rosclaw.Kernel.Acknowledgement
import Rosclaw.Agentd.BudgetLaws
import Rosclaw.Agentd.Conversation
import Rosclaw.Agentd.GraphRevisions
import Rosclaw.TaskKernel.OperationCancel
import Rosclaw.TaskKernel.OperationLiveness
import Rosclaw.Lib.Txn
import Rosclaw.TaskKernel.InputLaws
import Rosclaw.TaskKernel.VerdictLaws
import Rosclaw.Agentd.SessionLaws
import Rosclaw.Team.TaskLaws
import Rosclaw.Team.World
import Rosclaw.Storage.OutboxLaws
import Rosclaw.Storage.OutboxIntegrity
import Rosclaw.Storage.CollectionLaws
import Rosclaw.Storage.ProjectionLaws
import Rosclaw.Daemon.SlotLaws
import Rosclaw.Agentd.OperatorSocket
import Rosclaw.Agentd.ActionProposals
import Rosclaw.Agentd.ActionOutcome
import Rosclaw.Agentd.ActionAuthority
import Rosclaw.Pi.Canonical
import Rosclaw.Pi.Envelope
import Rosclaw.Skill.JobRuns
import Rosclaw.Body.ModbusLaws
import Rosclaw.Continual.ChampionLaws
import Rosclaw.Continual.EventLog
import Rosclaw.Continual.LearnerLaws
import Rosclaw.Continual.WeightRecovery
import Rosclaw.HostOps.ExecutorLaws
import Rosclaw.Daemon.Protocol
import Rosclaw.Lib.PyJson
import Rosclaw.Daemon.CanonicalJson
import Rosclaw.Daemon.OperatorRegistry
import Rosclaw.Daemon.RegistryLaws
import Rosclaw.Kernel.BodyLeases
import Rosclaw.Kernel.LeaseLaws
import Rosclaw.Operator.Creation
import Rosclaw.Kernel.Intent
import Rosclaw.Core.EventBus
import Rosclaw.Agentd.TaskGraphLaws
import Rosclaw.Agentd.WireNames
import Rosclaw.Team.Allocation
import Rosclaw.Agentd.Compaction
import Rosclaw.Agentd.StreamFilter
import Rosclaw.Agentd.TranscriptLaws
import Rosclaw.Feedback.RuntimeLaws
import Rosclaw.Storage.MigrationLaws
import Rosclaw.TwinTouch.EffectGate
import Rosclaw.TwinTouch.EffectLaws
import Rosclaw.Body.ActionMapping
import Rosclaw.Body.MappingLaws
import Rosclaw.Hub.Resolver
import Rosclaw.Hub.ResolverLaws
import Rosclaw.Continual.Experience
import Rosclaw.Lerobot.FeedbackLaws
import Rosclaw.Body.RH56Laws
import Rosclaw.TaskKernel.ArtifactRuns

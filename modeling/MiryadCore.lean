import MiryadCore.Workflow.DefinitionCorrectness
import MiryadCore.Workflow.WalkCorrectness
import MiryadCore.Workflow.TemplateIsolation
import MiryadCore.Workflow.TemplatePaths
import MiryadCore.Workflow.RunKeys
import MiryadCore.Workflow.RunDepth
import MiryadCore.Workflow.StepSessions
import MiryadCore.Users.MembershipRaceOutcome
import MiryadCore.Users.MembershipSync
import MiryadCore.Users.CreationRace
import MiryadCore.Rest.Ownership
import MiryadCore.Rest.Windows
import MiryadCore.Lymaille.BatchStepCorrectness
import MiryadCore.Lymaille.CreationRights
import MiryadCore.Lymaille.OperationKeys
import MiryadCore.Interactive.HubCorrectness
import MiryadCore.Interactive.OpenSessions
import MiryadCore.Interactive.Closure
import MiryadCore.Interactive.Cancellation
import MiryadCore.Drafts.Activation
import MiryadCore.Drafts.ActivationRace
import MiryadCore.Drafts.ContextTypeRows
import MiryadCore.Chat.AttemptLimit
import MiryadCore.Definitions.UpdateFrame
import MiryadCore.Definitions.McpAccess
import MiryadCore.Matrix.LeaseSafety
import MiryadCore.Auth.BearerTokens
import MiryadCore.Matrix.BackupFlags
import MiryadCore.Matrix.CipherSafety
import MiryadCore.Matrix.DeviceCode
import MiryadCore.Matrix.DeviceBatches
import MiryadCore.Mcp.ErrorAnswers
import MiryadCore.Mcp.ToolNames
import MiryadCore.Chat.SeenEvents
import MiryadCore.Chat.RoomSubjects
import MiryadCore.Chat.AnswerSafety
import MiryadCore.Interactive.IdleSessions
import MiryadCore.Interactive.McpRoles
import MiryadCore.Interactive.SessionIndex
import MiryadCore.Interactive.SubSessions
import MiryadCore.Interactive.OpenedAgents
import MiryadCore.Chat.ConcludedTurns
import MiryadCore.Chat.PartBlocks
import MiryadCore.Interactive.Reopening
import MiryadCore.Matrix.CryptoRuns
import MiryadCore.Matrix.SyncDelivery
import MiryadCore.Matrix.SyncSafety
import MiryadCore.Definitions.RouteFrames

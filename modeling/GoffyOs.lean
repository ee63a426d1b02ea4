import GoffyOs.Lib.Positional
import GoffyOs.Lib.Machine
import GoffyOs.Python.Sha256
import GoffyOs.Python.Text
import GoffyOs.Python.Uuid
import GoffyOs.Python.DateTime
import GoffyOs.Lib.HashChain
import GoffyOs.Lib.Holding
import GoffyOs.Hub.OperatorAudit
import GoffyOs.Hub.OperatorAuditChain
import GoffyOs.Hub.OperatorAuditRuns
import GoffyOs.Hub.OperatorAuditErrors
import GoffyOs.Hub.Credentials
import GoffyOs.Hub.CredentialRuns
import GoffyOs.Lib.Dict
import GoffyOs.Hub.Pairing
import GoffyOs.Python.Json
import GoffyOs.Hub.Approval
import GoffyOs.Hub.Auth
import GoffyOs.Hub.LiveAccess
import GoffyOs.Hub.LiveAccessRuns
import GoffyOs.Hub.McpSessions
import GoffyOs.Hub.McpSessionRuns
import GoffyOs.Hub.McpSessionSlots
import GoffyOs.Hub.Registry
import GoffyOs.Hub.WebSocket
import GoffyOs.Hub.WebSocketApprovals
import GoffyOs.Hub.WebSocketDiscovery
import GoffyOs.Hub.WebSocketCapacity
import GoffyOs.Hub.ToolAdmission
import GoffyOs.Lib.WeightedQueue
import GoffyOs.Hub.McpEventStore
import GoffyOs.Hub.RegistryHealth
import GoffyOs.Hub.PairingApi
import GoffyOs.Hub.PairingApiRuns
import GoffyOs.Kotlin.Text
import GoffyOs.Lib.Recent
import GoffyOs.Lib.Sql
import GoffyOs.Phone.ApprovalDeadlines
import GoffyOs.Phone.AuditObserver
import GoffyOs.Phone.Confirmations
import GoffyOs.Phone.HubAuthority
import GoffyOs.Phone.HubGateway
import GoffyOs.Phone.HubGatewayRuns
import GoffyOs.Phone.HubLink
import GoffyOs.Phone.HubLinkRuns
import GoffyOs.Phone.HubPairing
import GoffyOs.Phone.PhoneToolGateway
import GoffyOs.Phone.PhoneToolTimeline
import GoffyOs.Phone.PhoneTools
import GoffyOs.Phone.Protocol
import GoffyOs.Phone.TaskTimeline
import GoffyOs.Phone.TaskTimelineRuns
import GoffyOs.Phone.TerminalAudit
import GoffyOs.Phone.TerminalAuditStore
import GoffyOs.Phone.ViewModel
import GoffyOs.Phone.ViewModelRuns
import GoffyOs.Hub.BoundedText
import GoffyOs.Hub.GitStatus
import GoffyOs.Kotlin.Json
import GoffyOs.Contract.GitStatus
import GoffyOs.Contract.MacClipboard
import GoffyOs.Contract.MacFiles
import GoffyOs.Contract.MacFilesLargest
import GoffyOs.Contract.MacProcesses
import GoffyOs.Contract.RomText
import GoffyOs.Hub.GitPorcelain
import GoffyOs.Hub.MacClipboard
import GoffyOs.Hub.MacFiles
import GoffyOs.Hub.MacFilesLargest
import GoffyOs.Hub.MacFilesTree
import GoffyOs.Hub.MacProcesses
import GoffyOs.Hub.RomText
import GoffyOs.Kotlin.Regex
import GoffyOs.Kotlin.Units
import GoffyOs.Lib.Checks
import GoffyOs.Lib.Jobs
import GoffyOs.Lib.Ranking
import GoffyOs.Lib.Regex
import GoffyOs.Phone.HubTools
import GoffyOs.Phone.RomTools
import GoffyOs.Phone.SafeText
import GoffyOs.Python.Paths
import GoffyOs.Python.Re
import GoffyOs.Python.Sqlite
import GoffyOs.Python.Words
import GoffyOs.Hub.RomStatus
import GoffyOs.Contract.RomStatus
import GoffyOs.Hub.RomChecklist
import GoffyOs.Contract.RomChecklist
import GoffyOs.Lib.Lexicographic
import GoffyOs.Python.DateTimeOrder
import GoffyOs.Hub.CredentialOrder
import GoffyOs.Hub.LiveAccessLeaks
import GoffyOs.Phone.TerminalAuditStoreRuns
import GoffyOs.Phone.ForegroundReads
import GoffyOs.Contract.MacApps
import GoffyOs.Scripts.FastbootReadiness
import GoffyOs.Contract.RomFeatures
import GoffyOs.Phone.RestoredAudit
import GoffyOs.Phone.MemoryStore
import GoffyOs.Phone.ApprovalOutcomes
import GoffyOs.Hub.RomTextCuts
import GoffyOs.Hub.RomReadiness
import GoffyOs.Hub.MacFilesDescriptors
import GoffyOs.Hub.MacFilesSize
import GoffyOs.Hub.GitRecords
import GoffyOs.Lib.FileTree
import GoffyOs.Hub.MacFilesInside
import GoffyOs.Hub.ToolSchema
import GoffyOs.Hub.Identity
import GoffyOs.Scripts.EvidenceWriter
import GoffyOs.Scripts.OptionalEvidence
import GoffyOs.Scripts.SecurityScan
import GoffyOs.Phone.CredentialStore
import GoffyOs.Phone.IntentRouter
import GoffyOs.Hub.CanonicalJson
import GoffyOs.Contract.ApprovalSigning
import GoffyOs.Contract.UserApproval
import GoffyOs.Phone.HubLinkShown
import GoffyOs.Contract.TokenRotationRuns

import OpenShell.Lib.Program
import OpenShell.Lib.Faults
import OpenShell.Lib.Interleaving
import OpenShell.Lib.Phases
import OpenShell.Lib.Machine
import OpenShell.Lib.Table
import OpenShell.Lib.Pages
import OpenShell.Lib.KeyedUnion
import OpenShell.Lib.Maps
import OpenShell.Lib.Results
import OpenShell.Lib.Text
import OpenShell.Lib.Utf8
import OpenShell.Lib.Numbers
import OpenShell.Lib.Base64
import OpenShell.Lib.ByteStream
import OpenShell.Lib.IpAddr
import OpenShell.Lib.IpText
import OpenShell.Lib.Json
import OpenShell.Lib.PathNames
import OpenShell.Lib.Shell
import OpenShell.Lib.Rego
import OpenShell.Lib.Protobuf
import OpenShell.Policy.Model
import OpenShell.Policy.Validate
import OpenShell.Policy.Paths
import OpenShell.Policy.Yaml
import OpenShell.Policy.Proto
import OpenShell.Policy.PolicyHash
import OpenShell.Server.Store
import OpenShell.Server.Merge
import OpenShell.Server.Grants
import OpenShell.Server.PolicyWrites
import OpenShell.Server.Revisions
import OpenShell.Server.Settings
import OpenShell.Server.Drafts
import OpenShell.Server.UpdateConfig
import OpenShell.Server.Report
import OpenShell.Server.Rules
import OpenShell.Server.DraftRuns
import OpenShell.Server.Approval
import OpenShell.Server.Landing
import OpenShell.Server.ApprovalComplete
import OpenShell.Server.MergeOrder
import OpenShell.Server.Undo
import OpenShell.Server.Isolation
import OpenShell.Server.GlobalFreeze
import OpenShell.Server.Sends
import OpenShell.Server.PolicyStatus
import OpenShell.Server.SafePolicies
import OpenShell.Server.WriterContract
import OpenShell.Server.WriterSafety
import OpenShell.Server.Writers
import OpenShell.Server.ChunkRule
import OpenShell.Server.DraftPhase
import OpenShell.Server.DraftStatus
import OpenShell.Server.GlobalHistory
import OpenShell.Sandbox.Engine
import OpenShell.Sandbox.PolicyRules
import OpenShell.Sandbox.RuleAgreement
import OpenShell.Sandbox.DenyReasons
import OpenShell.Sandbox.EndpointConfig
import OpenShell.Sandbox.Secrets
import OpenShell.Sandbox.Redaction
import OpenShell.Sandbox.FailClosed
import OpenShell.Sandbox.PathSegments
import OpenShell.Sandbox.Padding
import OpenShell.Sandbox.Http
import OpenShell.Sandbox.Bodies
import OpenShell.Sandbox.Chunked
import OpenShell.Sandbox.Framing
import OpenShell.Sandbox.Responses
import OpenShell.Sandbox.Relay
import OpenShell.Sandbox.RequestLine
import OpenShell.Sandbox.HeaderLines
import OpenShell.Sandbox.Substitution
import OpenShell.Sandbox.Traversal
import OpenShell.Sandbox.KeptApart
import OpenShell.Sandbox.BasicAuth
import OpenShell.Sandbox.BasicTokens
import OpenShell.Sandbox.LineSecrets
import OpenShell.Sandbox.ScanReach
import OpenShell.Sandbox.Smuggling
import OpenShell.Sandbox.Tunnel
import OpenShell.Sandbox.Dial
import OpenShell.Sandbox.Proxy
import OpenShell.Sandbox.Targets
import OpenShell.Sandbox.PolicyData
import OpenShell.Sandbox.AcceptedConfig
import OpenShell.Sandbox.Alike
import OpenShell.Sandbox.Loaders
import OpenShell.Sandbox.LoadersAgree
import OpenShell.Sandbox.QueryRules
import OpenShell.Sandbox.RuleTriples
import OpenShell.Sandbox.Destinations
import OpenShell.Sandbox.AddedPolicy
import OpenShell.Sandbox.OriginForm
import OpenShell.Sandbox.ForwardedRequest
import OpenShell.Sandbox.ConnectData
import OpenShell.Sandbox.ForwardPlaceholders
import OpenShell.Sandbox.PercentCodecs
import OpenShell.Sandbox.StrayPercents
import OpenShell.Sandbox.HeaderFields
import OpenShell.Sandbox.Lengths
import OpenShell.Sandbox.Segmentation
import OpenShell.Sandbox.Inference
import OpenShell.Sandbox.ChunkLines
import OpenShell.Sandbox.InferenceBodies
import OpenShell.Sandbox.InferenceHeads
import OpenShell.Sandbox.InferenceRequests
import OpenShell.Sandbox.SizeLines
import OpenShell.Sandbox.InferenceStreaming
import OpenShell.Sandbox.ChunkEncodings
import OpenShell.Sandbox.InferenceRouting
import OpenShell.Sandbox.StreamEnds
import OpenShell.Sandbox.BackendUrl
import OpenShell.Sandbox.Interception
import OpenShell.Sandbox.FramingAgreement
import OpenShell.Sandbox.OpenBodies
import OpenShell.Sandbox.OpenRequests
import OpenShell.Sandbox.Handshake
import OpenShell.Sandbox.IdentityCache
import OpenShell.Sandbox.PeerIdentity
import OpenShell.Sandbox.PollLoop
import OpenShell.Sandbox.BaselinePaths
import OpenShell.Sandbox.DenialDrafts
import OpenShell.Sandbox.InternalAddresses
import OpenShell.Sandbox.RunningPolicy
import OpenShell.Sandbox.ObservedRules
import OpenShell.Sandbox.LoadedRules
import OpenShell.Sandbox.AmendedPolicy
import OpenShell.Server.FailedUpdate
import OpenShell.Server.ServedPolicy
import OpenShell.Server.DraftLoop
import OpenShell.Server.BulkApproval
import OpenShell.Server.SshTunnel
import OpenShell.Server.Providers
import OpenShell.Server.SandboxRecord
import OpenShell.Server.LogWatch
import OpenShell.Server.Objects
import OpenShell.Server.ProviderRecords
import OpenShell.Server.Buses
import OpenShell.Server.Gateway
import OpenShell.Server.SandboxDeletion
import OpenShell.Server.SessionCleanUp
import OpenShell.Server.SandboxCreation
import OpenShell.Server.ExecCommand
import OpenShell.Lib.Tags
import OpenShell.Lib.Forest
import OpenShell.Lib.Credentials
import OpenShell.Lib.SyscallFilters
import OpenShell.Lib.Undo
import OpenShell.Sandbox.LogPush
import OpenShell.Server.PushedLogs
import OpenShell.Sandbox.DenialFlushes
import OpenShell.Sandbox.ProcessTree
import OpenShell.Router.Routes
import OpenShell.Router.Backend
import OpenShell.Server.InferenceRoutes
import OpenShell.Sandbox.RouteRefresh
import OpenShell.Sandbox.Confinement
import OpenShell.Sandbox.Reaper
import OpenShell.Sandbox.Netns
import OpenShell.Core.Forward
import OpenShell.Lib.Environment
import OpenShell.Server.SandboxEnv
import OpenShell.Sandbox.ChildEnv
import OpenShell.Lib.PacketFilter
import OpenShell.Sandbox.BypassRules
import OpenShell.Sandbox.SshChannels

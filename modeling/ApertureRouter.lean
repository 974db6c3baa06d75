import ApertureRouter.Stream.Protocol
import ApertureRouter.Stream.Boundaries
import ApertureRouter.Routes.Messages
import ApertureRouter.Stream.Encodings
import ApertureRouter.Stream.Agreement
import ApertureRouter.Types.History
import ApertureRouter.Types.RoundTrip
import ApertureRouter.Provider.Completeness
import ApertureRouter.Provider.Convergence
import ApertureRouter.Stream.Heartbeat
import ApertureRouter.Stream.Usage
import ApertureRouter.Stream.Kinds
import ApertureRouter.Lib.Sse
import ApertureRouter.Routes.Passthrough
import ApertureRouter.Routes.LineBuffer
import ApertureRouter.Routes.Streaming
import ApertureRouter.Lib.Dialog
import ApertureRouter.Proxy.Client
import ApertureRouter.Routes.Proxy
import ApertureRouter.Types.Validation
import ApertureRouter.Types.Wire
import ApertureRouter.Routes.Admission
import ApertureRouter.Routes.Conversion
import ApertureRouter.Routes.Handlers
import ApertureRouter.Routes.Isolation
import ApertureRouter.Routes.Thinking
import ApertureRouter.Lib.Blocks
import ApertureRouter.Routes.Filtered
import ApertureRouter.Types.Thinking
import ApertureRouter.Types.Payload
import ApertureRouter.Types.Replace
import ApertureRouter.Types.Losses
import ApertureRouter.Discovery.Models
import ApertureRouter.Discovery.Snapshots
import ApertureRouter.Discovery.Sync
import ApertureRouter.Lib.Utf8
import ApertureRouter.Proxy.Utf8Stream
import ApertureRouter.Proxy.SizeLimit
import ApertureRouter.Proxy.BadBytes
import ApertureRouter.Proxy.Rebinding
import ApertureRouter.Lib.Window
import ApertureRouter.Middleware.Tracked
import ApertureRouter.Middleware.RateLimit
import ApertureRouter.Middleware.BanStore
import ApertureRouter.Middleware.Bursts
import ApertureRouter.Config
import ApertureRouter.Lib.Cidr
import ApertureRouter.Proxy.LocalAddresses
import ApertureRouter.Proxy.HostPolicy
import ApertureRouter.Proxy.Gateway
import ApertureRouter.Middleware.ClientIp
import ApertureRouter.Middleware.Auth
import ApertureRouter.Middleware.Guesses
import ApertureRouter.Lib.Places
import ApertureRouter.Middleware.Races
import ApertureRouter.Lib.Offsets
import ApertureRouter.Routes.Refeed
import ApertureRouter.Lib.Readers
import ApertureRouter.Server.Router
import ApertureRouter.Stream.Overflow
import ApertureRouter.Stream.Reasoning
import ApertureRouter.Server.Rate
import ApertureRouter.Server.Startup
import ApertureRouter.Types.Deserialize
import ApertureRouter.Types.Fidelity
import ApertureRouter.Routes.Limits
import ApertureRouter.Routes.Credentials
import ApertureRouter.Routes.Confined
import ApertureRouter.ConfigFile
import ApertureRouter.Cli.ApiKey
import ApertureRouter.Cli.Toggle
import ApertureRouter.Cli.Setup
import ApertureRouter.Cli.ModelFetcher
import ApertureRouter.Cli.OpencodeExport
import ApertureRouter.Cli.OpenclawExport
import ApertureRouter.Cli.Exports
import ApertureRouter.Proxy.Retry
import ApertureRouter.Routes.Failover
import ApertureRouter.Discovery.Requestable
import ApertureRouter.Types.ToolErrors
import ApertureRouter.Lib.JsonGrammar
import ApertureRouter.Routes.DepthCheck
import ApertureRouter.Routes.EventText
import ApertureRouter.Stream.Bytes
import ApertureRouter.Proxy.ReadBody
import ApertureRouter.Routes.Cuts
import ApertureRouter.Routes.ProxyData
import ApertureRouter.Discovery.Fetch
import ApertureRouter.Discovery.Refresh
import ApertureRouter.Lib.Tasks
import ApertureRouter.Lib.TaskRuns
import ApertureRouter.Routes.Queries
import ApertureRouter.Routes.Load
import ApertureRouter.Server.Log
import ApertureRouter.Server.Tasks
import ApertureRouter.Server.Laws
import ApertureRouter.Server.Costs
import ApertureRouter.Server.Interleaving
import ApertureRouter.Server.Alone
import ApertureRouter.Server.Confined
import ApertureRouter.Server.Started

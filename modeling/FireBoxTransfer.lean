import FireBoxTransfer.Framework.Runs
import FireBoxTransfer.Framework.TaskPool
import FireBoxTransfer.Framework.AssocMap
import FireBoxTransfer.Framework.Program
import FireBoxTransfer.Framework.FileTree
import FireBoxTransfer.Framework.PathContext
import FireBoxTransfer.Framework.Texts
import FireBoxTransfer.Framework.Volume
import FireBoxTransfer.Framework.PercentEncoding
import FireBoxTransfer.Framework.UrlQuery
import FireBoxTransfer.Framework.JsonValue
import FireBoxTransfer.Core.Model
import FireBoxTransfer.Core.Pin
import FireBoxTransfer.Core.Session
import FireBoxTransfer.Core.ServerV2
import FireBoxTransfer.Core.ServerV2Steps
import FireBoxTransfer.Core.ServerV2Roles
import FireBoxTransfer.Core.ServerV2Ownership
import FireBoxTransfer.Core.ServerV2Cancel
import FireBoxTransfer.Core.ServerV2Files
import FireBoxTransfer.Core.Save
import FireBoxTransfer.Core.Transmission
import FireBoxTransfer.Core.ServerV2Abort
import FireBoxTransfer.Core.ServerV2SessionEnd
import FireBoxTransfer.Core.ServerV2PrepareAborted
import FireBoxTransfer.Core.Listener
import FireBoxTransfer.Core.RegisterClient
import FireBoxTransfer.Core.Discovery
import FireBoxTransfer.Core.DeviceStore
import FireBoxTransfer.Core.WebSend
import FireBoxTransfer.Core.WebSessions
import FireBoxTransfer.Core.PinLockout
import FireBoxTransfer.Core.Queries
import FireBoxTransfer.Bridge.Stack
import FireBoxTransfer.Bridge.Channels
import FireBoxTransfer.Bridge.Decisions
import FireBoxTransfer.Bridge.Answers
import FireBoxTransfer.App.ReceiveSession
import FireBoxTransfer.App.ReceiveController
import FireBoxTransfer.App.Consent
import FireBoxTransfer.App.AutoAccept
import FireBoxTransfer.App.Offer
import FireBoxTransfer.App.Favorites
import FireBoxTransfer.RemoteFs.Model
import FireBoxTransfer.RemoteFs.Access
import FireBoxTransfer.RemoteFs.Local
import FireBoxTransfer.RemoteFs.Saf
import FireBoxTransfer.RemoteFs.Handlers
import FireBoxTransfer.RemoteFs.Firebox
import FireBoxTransfer.RemoteFs.FireboxClient
import FireBoxTransfer.RemoteFs.FireboxMutations
import FireBoxTransfer.RemoteFs.FireboxWire
import FireBoxTransfer.RemoteFs.FireboxResponses
import FireBoxTransfer.RemoteFs.FireboxExchange
import FireBoxTransfer.RemoteFs.Validators
import FireBoxTransfer.RemoteFs.Provider
import FireBoxTransfer.RemoteFs.Phases
import FireBoxTransfer.RemoteFs.AccessControl
import FireBoxTransfer.RemoteFs.Revocation
import FireBoxTransfer.RemoteFs.Serving
import FireBoxTransfer.RemoteFs.Pages
import FireBoxTransfer.RemoteFs.Listing
import FireBoxTransfer.RemoteFs.Confinement
import FireBoxTransfer.RemoteFs.NewChildren
import FireBoxTransfer.RemoteFs.Addressing
import FireBoxTransfer.RemoteFs.Mutations
import FireBoxTransfer.Explorer.Model
import FireBoxTransfer.Explorer.NetworkClient
import FireBoxTransfer.Explorer.Pagination
import FireBoxTransfer.Explorer.Transfer
import FireBoxTransfer.Explorer.Clients
import FireBoxTransfer.Explorer.Moves
import FireBoxTransfer.Explorer.LocalClient
import FireBoxTransfer.Explorer.ClientCopies
import FireBoxTransfer.Explorer.Overlaps
import FireBoxTransfer.Explorer.FailedWrites
import FireBoxTransfer.Explorer.Navigation
import FireBoxTransfer.Explorer.NetworkCopies
import FireBoxTransfer.Files.Names
import FireBoxTransfer.Files.Destinations
import FireBoxTransfer.Files.LegalNames
import FireBoxTransfer.Framework.Utf8Cuts
import FireBoxTransfer.Files.Sanitizing
import FireBoxTransfer.Files.FreshNames
import FireBoxTransfer.App.AccessUpdates
import FireBoxTransfer.App.ServerLifecycle
import FireBoxTransfer.App.ServerStops
import FireBoxTransfer.App.ServerAgreement
import FireBoxTransfer.Framework.Base64
import FireBoxTransfer.Core.Token
import FireBoxTransfer.Signaling.Model
import FireBoxTransfer.Signaling.Rooms
import FireBoxTransfer.Signaling.Queues
import FireBoxTransfer.Signaling.Knowledge
import FireBoxTransfer.Signaling.Agreement
import FireBoxTransfer.Signaling.Convergence
import FireBoxTransfer.Framework.Duplex
import FireBoxTransfer.Framework.Json
import FireBoxTransfer.Framework.Progress
import FireBoxTransfer.WebRTC.Messages
import FireBoxTransfer.WebRTC.PinExchange
import FireBoxTransfer.WebRTC.ReceiveLoop
import FireBoxTransfer.WebRTC.Completion
import FireBoxTransfer.WebRTC.Results
import FireBoxTransfer.WebRTC.Contents
import FireBoxTransfer.Framework.Simulation
import FireBoxTransfer.WebRTC.Acknowledgement
import FireBoxTransfer.WebRTC.Answers
import FireBoxTransfer.Bridge.UploadRetries
import FireBoxTransfer.Bridge.UploadTask
import FireBoxTransfer.Bridge.RemoteRead
import FireBoxTransfer.Bridge.WebDownloads
import FireBoxTransfer.App.SendSession
import FireBoxTransfer.App.ForegroundService
import FireBoxTransfer.App.SendOutcome
import FireBoxTransfer.App.SendLeftovers
import FireBoxTransfer.App.SharedPreferencesFile
import FireBoxTransfer.Framework.InetText
import FireBoxTransfer.Core.IpAddr
import FireBoxTransfer.Core.InterfaceFilter
import FireBoxTransfer.Core.ScopedHost
import FireBoxTransfer.Cli.SendTask
import FireBoxTransfer.Isolates.TaskStreams
import FireBoxTransfer.Isolates.Handlers
import FireBoxTransfer.Cli.ServerEvents
import FireBoxTransfer.Cli.UploadTargets
import FireBoxTransfer.Cli.Receive
import FireBoxTransfer.Cli.ReceiveRuns
import FireBoxTransfer.Cli.ReceiveBooks
import FireBoxTransfer.Cli.ReceiveAccounting
import FireBoxTransfer.Cli.ReceiveSummary
import FireBoxTransfer.Framework.FutureQueue
import FireBoxTransfer.Framework.Slots
import FireBoxTransfer.Isolates.Receiving
import FireBoxTransfer.Isolates.ReceivingRuns
import FireBoxTransfer.Isolates.ReceivingHandlers
import FireBoxTransfer.Isolates.ReceivingProgress
import FireBoxTransfer.Bridge.RemoteFsRequests
import FireBoxTransfer.Bridge.RemoteFsSteps
import FireBoxTransfer.Bridge.RemoteFsSlots
import FireBoxTransfer.Bridge.RemoteFsAnswers
import FireBoxTransfer.Framework.Buffered
import FireBoxTransfer.Core.SubnetScans
import FireBoxTransfer.Core.ScanRuns
import FireBoxTransfer.Core.StagedDiscovery
import FireBoxTransfer.Framework.Replaced
import FireBoxTransfer.Framework.Printed
import FireBoxTransfer.Cli.PairedDevices

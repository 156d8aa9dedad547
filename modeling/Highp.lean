import Highp.Lib.Transition
import Highp.Lib.Framing
import Highp.Network.LegalStream
import Highp.Network.SlotReuse
import Highp.Network.WorkerLoop
import Highp.Network.SendBuffer
import Highp.Chat.Server
import Highp.Chat.Agreement
import Highp.Chat.Silence
import Highp.Chat.Completions
import Highp.Chat.Sockets
import Highp.Chat.Teardown
import Highp.Chat.Identity
import Highp.Chat.Receive
import Highp.Lib.Tally
import Highp.Network.CommandQueue
import Highp.Network.CommandOrder
import Highp.Chat.AcceptFirst
import Highp.Network.Lifecycle
import Highp.Network.OneReceive
import Highp.Network.SlotExclusive
import Highp.Network.ConnectionCount
import Highp.Echo.Server
import Highp.Chat.SendSize
import Highp.Network.AcceptDepth
import Highp.Network.AcceptSockets
import Highp.Network.AcceptHolder
import Highp.Chat.Counted
import Highp.Chat.Enrollment
import Highp.Chat.Shutdown
import Highp.Network.WorkerShutdown
import Highp.Chat.Capacity
import Highp.Chat.Membership
import Highp.Chat.Lookup
import Highp.Chat.Posts
import Highp.Chat.Relay
import Highp.Chat.Announcements
import Highp.Chat.Answers
import Highp.Chat.Conversation
import Highp.Lib.Account
import Highp.Metrics.Gauges
import Highp.Chat.Resolutions
import Highp.Client.PacketStream
import Highp.Config.Generators
import Highp.Config.Defaults
import Highp.Memory.ObjectPool
import Highp.Metrics.Windows
import Highp.Metrics.ServerWriter
import Highp.Metrics.ClientWriter
import Highp.Metrics.Reported
import Highp.Metrics.Restart
import Highp.Metrics.Deadlines
import Highp.Metrics.Schedules
import Highp.Chat.Handlings
import Highp.Chat.RoomEvents
import Highp.Config.Layout
import Highp.Config.Names
import Highp.Config.Quoted
import Highp.Config.Integers
import Highp.Metrics.Rates
import Highp.Metrics.LogicCpu
import Highp.Metrics.Balance
import Highp.Chat.Rejections
import Highp.Chat.RoomIds
import Highp.Client.Disconnects
import Highp.Lib.Object
import Highp.Network.ByteQueue
import Highp.Lib.Underway
import Highp.Metrics.Consistency
import Highp.Metrics.Environment
import Highp.Network.Timestamps
import Highp.Lib.Duties
import Highp.Memory.RawPools
import Highp.Scope.DeferContext
import Highp.Lib.Json
import Highp.Metrics.Manifest
import Highp.Metrics.OutputPaths
import Highp.Client.ChatCli
import Highp.Chat.Inflow
import Highp.Client.Connections
import Highp.Client.SharedSocket
import Highp.Client.Ownership
import Highp.Client.Prompt
import Highp.Lib.Decimal
import Highp.Lib.JsonLines
import Highp.Metrics.SnapshotFile
import Highp.Network.Process
import Highp.Client.Receiver
import Highp.Client.Screens
import Highp.Chat.GameLoop
import Highp.Config.NetworkCfg
import Highp.Echo.Session

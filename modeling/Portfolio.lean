import Portfolio.Lib.Machine
import Portfolio.Lib.SeqNum
import Portfolio.Netcode.UdpTransport
import Portfolio.Netcode.ReceiveWindow
import Portfolio.Netcode.AtMostOnce
import Portfolio.Netcode.Link
import Portfolio.Netcode.LinkInv
import Portfolio.Netcode.Reliability
import Portfolio.Lib.Scalar
import Portfolio.Netcode.World
import Portfolio.Lib.ByteCodec
import Portfolio.Netcode.Delta
import Portfolio.Netcode.Snapshot
import Portfolio.Netcode.SnapshotStream
import Portfolio.Netcode.SnapshotAvailability
import Portfolio.Netcode.PongServer
import Portfolio.Arena.CombatInv
import Portfolio.Arena.SessionRuns
import Portfolio.Arena.MatchStats
import Portfolio.Arena.PlayerProfileService
import Portfolio.Arena.LifetimeStats
import Portfolio.Arena.MatchQueue
import Portfolio.Arena.QueueInv
import Portfolio.Arena.Matchmaker
import Portfolio.Arena.MatchmakerInv
import Portfolio.Arena.ConnectionInv
import Portfolio.Arena.ConnectionRuns
import Portfolio.Arena.LeaderboardStore
import Portfolio.Arena.TopProfiles
import Portfolio.Lib.VarintFields
import Portfolio.Netcode.InputOrder
import Portfolio.Netcode.LoadGenerator
import Portfolio.Netcode.Metrics
import Portfolio.Netcode.PongGame
import Portfolio.Netcode.ReliableSend
import Portfolio.Netcode.SendAccounting
import Portfolio.Netcode.MatchExclusion
import Portfolio.Lib.Text
import Portfolio.Lib.ReadState
import Portfolio.TurnCombat.GameState
import Portfolio.TurnCombat.Battle
import Portfolio.Chat.Payload
import Portfolio.Chat.PayloadGrammar
import Portfolio.Chat.WebSocketServer
import Portfolio.Chat.SessionInv
import Portfolio.Chat.Nicknames
import Portfolio.Chat.Membership
import Portfolio.Chat.Turns
import Portfolio.Chat.Spoken
import Portfolio.Chat.Handed
import Portfolio.Chat.Delivery
import Portfolio.TcpEcho.EchoServer
import Portfolio.WsPong.PongServer
import Portfolio.WsPong.SlotInv
import Portfolio.WsPong.Directions
import Portfolio.Lib.Redis
import Portfolio.Netcode.RoomManager
import Portfolio.Netcode.Sessions
import Portfolio.Netcode.RoomRegistry
import Portfolio.Lib.Json
import Portfolio.Lib.JsonReads
import Portfolio.Arena.ProfileJson
import Portfolio.Lib.RealScalar
import Portfolio.Arena.SessionCalls
import Portfolio.Arena.Movement
import Portfolio.Arena.FireRate
import Portfolio.Arena.Flight
import Portfolio.Arena.Replay
import Portfolio.Arena.EloRating
import Portfolio.TurnCombat.GameServer
import Portfolio.TurnCombat.LobbyStart
import Portfolio.Lib.Interleaving
import Portfolio.Pool.ConnectionPool
import Portfolio.Pool.Accounting
import Portfolio.Pool.Exhaustion
import Portfolio.Pool.AcquireLoop
import Portfolio.Teams.TeamStore
import Portfolio.Teams.TeamService
import Portfolio.Teams.Agreement
import Portfolio.Teams.Ownership
import Portfolio.Teams.LastOwner
import Portfolio.Products.ProductService
import Portfolio.Products.SearchIndex
import Portfolio.Orders.OrderService
import Portfolio.Orders.OrderLifecycle
import Portfolio.Orders.Notifications
import Portfolio.Issues.IssueService
import Portfolio.Issues.ConcurrentEdits
import Portfolio.SpringOrders.OrderService
import Portfolio.SpringOrders.CreatedEvents
import Portfolio.Sagaline.JwtTokenProvider
import Portfolio.Sagaline.ProductCache
import Portfolio.Sagaline.StaleEntry
import Portfolio.Sagaline.UserService
import Portfolio.Sagaline.TokenKinds
import Portfolio.Sagaline.Deactivation
import Portfolio.Sagaline.ConcurrentLogins
import Portfolio.Sagaline.SingleDevice
import Portfolio.Sagaline.Shop
import Portfolio.Sagaline.Ownership
import Portfolio.Lib.Rows
import Portfolio.Sagaline.ConcurrentCart
import Portfolio.Sagaline.CartConservation
import Portfolio.Sagaline.RateLimit
import Portfolio.Sagaline.RateWindows
import Portfolio.Lib.Topic
import Portfolio.Sagaline.OrderEvents
import Portfolio.Sagaline.EventOrdering
import Portfolio.Lib.Paths
import Portfolio.VideoEditor.EditRoutes
import Portfolio.VideoEditor.SubtitleJobs
import Portfolio.Arena.Leftover
import Portfolio.Netcode.TimeSync
import Portfolio.VideoEditor.FramePool
import Portfolio.VideoEditor.FrameAccounting
import Portfolio.Lib.PyBytes
import Portfolio.Lib.PyText
import Portfolio.Framework.Router
import Portfolio.Framework.RouterAgreement
import Portfolio.Framework.HttpParser
import Portfolio.Framework.HeaderSection
import Portfolio.Framework.RequestRoundTrip
import Portfolio.Framework.Framing
import Portfolio.Lib.Acyclic
import Portfolio.Lib.StableSort
import Portfolio.Lib.Table
import Portfolio.Frontend.Server
import Portfolio.Frontend.QueryCache
import Portfolio.Frontend.QueryResults
import Portfolio.Frontend.FreshEntries
import Portfolio.Framework.Container
import Portfolio.Framework.Singletons
import Portfolio.Netcode.DeltaExactness
import Portfolio.Netcode.NeighbourMatches
import Portfolio.Netcode.NewestPrediction
import Portfolio.Netcode.PhysicsInv
import Portfolio.Lib.ReorderBuffer
import Portfolio.Lib.Strided
import Portfolio.VideoEditor.Thumbnails
import Portfolio.Orders.OrderCreation
import Portfolio.Sagaline.CartTotals
import Portfolio.Lib.Transactional
import Portfolio.Sagaline.ExpiredTokens
import Portfolio.VideoEditor.UseWebSocket
import Portfolio.Lib.Srt
import Portfolio.VideoEditor.SrtRoundTrip
import Portfolio.VideoEditor.SubtitleTiming
import Portfolio.Lib.Civil
import Portfolio.IssueStats.IssueService
import Portfolio.IssueStats.StatsService
import Portfolio.IssueStats.CreatedCounts
import Portfolio.IssueStats.ResolvedCounts
import Portfolio.Netcode.AckHeader
import Portfolio.Lib.PairMap
import Portfolio.Framework.RouteParams
import Portfolio.Lib.JsNumber
import Portfolio.Frontend.UseQueryParams
import Portfolio.Lib.PyDict
import Portfolio.Framework.Responses
import Portfolio.Framework.ResponseFraming
import Portfolio.Framework.UserApplication
import Portfolio.Netcode.Prediction
import Portfolio.Lib.Pacing
import Portfolio.Netcode.GameLoop
import Portfolio.Arena.GameLoop
import Portfolio.WsPong.GameLoop
import Portfolio.Arena.ProfileHttpRouter
import Portfolio.VideoEditor.WebSocketService
import Portfolio.VideoEditor.LiveProgress
import Portfolio.WsPong.MetricsClient
import Portfolio.Lib.Percentile
import Portfolio.WsPong.MetricsStats
import Portfolio.Netcode.TickPercentiles
import Portfolio.Netcode.Checkpoints
import Portfolio.Netcode.ServerCheckpoints
import Portfolio.Framework.SpringUsers

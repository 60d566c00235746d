import RithmicNt.Lib.Machine
import RithmicNt.Lib.Dict
import RithmicNt.Lib.Recency
import RithmicNt.Lib.Tally
import RithmicNt.Lib.Pool
import RithmicNt.Lib.Backlog
import RithmicNt.Lib.Segments
import RithmicNt.Lib.StableSort
import RithmicNt.Lib.Utf8
import RithmicNt.Exec.Plant
import RithmicNt.Exec.Text
import RithmicNt.Exec.Ident
import RithmicNt.Exec.Exposure
import RithmicNt.Exec.Notify
import RithmicNt.Exec.Fills
import RithmicNt.Exec.Inventory
import RithmicNt.Exec.Drain
import RithmicNt.Exec.Lru
import RithmicNt.Adapter.Rearm
import RithmicNt.Adapter.Bridge
import RithmicNt.Adapter.BridgeTasks
import RithmicNt.Adapter.BridgeRuns
import RithmicNt.Adapter.Account
import RithmicNt.Adapter.Pnl
import RithmicNt.Adapter.PnlStream
import RithmicNt.Adapter.PnlGate
import RithmicNt.Adapter.PnlRecord
import RithmicNt.Adapter.PnlExposure
import RithmicNt.Adapter.PnlReports
import RithmicNt.Adapter.Rows
import RithmicNt.Adapter.Drain
import RithmicNt.Adapter.WorkingOrders
import RithmicNt.Adapter.Cache
import RithmicNt.Adapter.Apply
import RithmicNt.Adapter.ReportStatus
import RithmicNt.Adapter.DrainCommits
import RithmicNt.Adapter.Inflight
import RithmicNt.Adapter.OrderLists
import RithmicNt.Adapter.Inventory
import RithmicNt.Adapter.Intake
import RithmicNt.Adapter.IntakeFills
import RithmicNt.Adapter.Announcements
import RithmicNt.Adapter.FillStore
import RithmicNt.Adapter.FillRuns
import RithmicNt.Host.Intents
import RithmicNt.Host.Session
import RithmicNt.Host.Subscriptions
import RithmicNt.Host.Holdings
import RithmicNt.Host.Operations
import RithmicNt.Host.Sessions
import RithmicNt.Host.Restore
import RithmicNt.Host.Pump
import RithmicNt.Host.Recover
import RithmicNt.Host.Registry
import RithmicNt.Host.RegistrySteps
import RithmicNt.Host.RegistryRuns
import RithmicNt.Host.Lifecycle
import RithmicNt.Host.Joins
import RithmicNt.Host.JoinStages
import RithmicNt.Host.JoinSteps
import RithmicNt.Host.JoinRuns
import RithmicNt.Adapter.Polling
import RithmicNt.Adapter.PollRuns
import RithmicNt.Adapter.PollStreak
import RithmicNt.Gateway.Runtime
import RithmicNt.Gateway.RuntimeSteps
import RithmicNt.Gateway.RuntimeRuns
import RithmicNt.Gateway.Calls
import RithmicNt.Gateway.CallRuns
import RithmicNt.Gateway.Frames
import RithmicNt.Gateway.WriteRuns
import RithmicNt.Gateway.Server
import RithmicNt.Gateway.ServerMoves
import RithmicNt.Gateway.ServerRuns
import RithmicNt.Host.Gates
import RithmicNt.Host.Commands
import RithmicNt.Host.GateRuns
import RithmicNt.Host.Streams
import RithmicNt.Host.StreamRuns
import RithmicNt.Plants.Venue
import RithmicNt.Plants.Calendar
import RithmicNt.Host.Fanout
import RithmicNt.Host.Delivery
import RithmicNt.Host.AccountDelivery
import RithmicNt.Host.Wiring
import RithmicNt.Host.DeliveryRuns
import RithmicNt.Host.Routing
import RithmicNt.Host.Gaps
import RithmicNt.Host.Privacy
import RithmicNt.Gateway.Facades
import RithmicNt.Gateway.OrderFlags
import RithmicNt.Host.Attachment
import RithmicNt.Host.AttachmentReads
import RithmicNt.Host.AttachmentMerge
import RithmicNt.Host.Batches
import RithmicNt.Gateway.EventQueue
import RithmicNt.Gateway.Failures
import RithmicNt.Plants.History
import RithmicNt.Plants.Slices
import RithmicNt.Plants.FillReplies
import RithmicNt.Gateway.BarHistory
import RithmicNt.Gateway.PyClient
import RithmicNt.Adapter.Bars
import RithmicNt.Gateway.KeyHash
import RithmicNt.Gateway.Paths
import RithmicNt.Adapter.MarketData
import RithmicNt.Adapter.MarketDataRuns
import RithmicNt.Adapter.TickerIntents
import RithmicNt.Adapter.TickerIntentRuns
import RithmicNt.Exec.IdentCodec
import RithmicNt.Exec.Roots
import RithmicNt.Lib.Arrivals
import RithmicNt.Gateway.FrameReaders
import RithmicNt.Gateway.IdleExit
import RithmicNt.Lib.Rounding
import RithmicNt.Adapter.Brackets
import RithmicNt.Lib.Results
import RithmicNt.Adapter.BookUpdates
import RithmicNt.Adapter.BookUpdateRuns
import RithmicNt.Lib.Checked
import RithmicNt.Lib.Gregorian
import RithmicNt.Plants.CivilDates
import RithmicNt.Plants.CheckedDates
import RithmicNt.Exec.Timestamps
import RithmicNt.Exec.FreshestRows
import RithmicNt.Exec.LruRuns
import RithmicNt.Host.PublisherRuns
import RithmicNt.Host.Publishers
import RithmicNt.Host.NativeRecords
import RithmicNt.Plants.Logins
import RithmicNt.Plants.LoginRuns
import RithmicNt.Gateway.Binding
import RithmicNt.Gateway.BindingRuns
import RithmicNt.Adapter.OrderCommands
import RithmicNt.Host.PumpStreams
import RithmicNt.Host.TopicLocks
import RithmicNt.Host.HistoryAdmission
import RithmicNt.Adapter.BarHydration
import RithmicNt.Adapter.BarSeam
import RithmicNt.Gateway.Endpoints
import RithmicNt.Gateway.EndpointsAgree
import RithmicNt.Lib.Broadcast
import RithmicNt.Plants.Forward
import RithmicNt.Plants.ForwardRuns
import RithmicNt.Gateway.OrderFailures
import RithmicNt.Adapter.BarRuns

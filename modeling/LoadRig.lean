import LoadRig.Chat.Hall
import LoadRig.Chat.Message
import LoadRig.Chat.Reply
import LoadRig.Chat.Route
import LoadRig.Chat.Rules
import LoadRig.Chat.Sessions
import LoadRig.Chat.Visit
import LoadRig.Clock.QueueSession
import LoadRig.Clock.Run
import LoadRig.Clock.Session
import LoadRig.Clock.Supply
import LoadRig.CommandLine
import LoadRig.Config.Basic
import LoadRig.Config.OfToml
import LoadRig.Counters
import LoadRig.Csv
import LoadRig.Decimal.Binary64
import LoadRig.Decimal.Layout
import LoadRig.Decimal.Scaled
import LoadRig.Decimal.Shortest
import LoadRig.Export
import LoadRig.Files
import LoadRig.Generator
import LoadRig.Http.Response
import LoadRig.Http.Status
import LoadRig.Json.Quoted
import LoadRig.Json.Tree
import LoadRig.Json.Value
import LoadRig.Keyed
import LoadRig.Link.Connection
import LoadRig.Link.Error
import LoadRig.Link.Mock
import LoadRig.Link.Script
import LoadRig.Link.Service
import LoadRig.Link.Target
import LoadRig.Main
import LoadRig.Message.Item
import LoadRig.Message.Kind
import LoadRig.Net.Ipv4
import LoadRig.Net.Ipv6
import LoadRig.Net.SocketAddress
import LoadRig.Phase
import LoadRig.Plan
import LoadRig.Preflight.Checks
import LoadRig.Preflight.Health
import LoadRig.Preflight.Target
import LoadRig.Producer
import LoadRig.Program.Arguments
import LoadRig.Program.Ending
import LoadRig.Program.Load
import LoadRig.Program.Preflight
import LoadRig.Program.Server
import LoadRig.Proofs.Chat.Agreement
import LoadRig.Proofs.Chat.Echo
import LoadRig.Proofs.Chat.Hall
import LoadRig.Proofs.Chat.Roster
import LoadRig.Proofs.Chat.Sessions
import LoadRig.Proofs.Chat.Verdict
import LoadRig.Proofs.Chat.Visits
import LoadRig.Proofs.Chat.Wording
import LoadRig.Proofs.Clock.Ending
import LoadRig.Proofs.Clock.Report
import LoadRig.Proofs.Clock.Run
import LoadRig.Proofs.Clock.Session
import LoadRig.Proofs.Clock.Sign
import LoadRig.Proofs.Config.Overlay
import LoadRig.Proofs.Csv
import LoadRig.Proofs.Decimal.Layout
import LoadRig.Proofs.Export
import LoadRig.Proofs.Files
import LoadRig.Proofs.Generator
import LoadRig.Proofs.Json.Alike
import LoadRig.Proofs.Json.Literal
import LoadRig.Proofs.Json.Reading
import LoadRig.Proofs.Json.Recognition
import LoadRig.Proofs.Json.Spelling
import LoadRig.Proofs.Keyed
import LoadRig.Proofs.Link.Budget
import LoadRig.Proofs.Link.Lifecycle
import LoadRig.Proofs.Moves
import LoadRig.Proofs.Outage.Ending
import LoadRig.Proofs.Phase.Books
import LoadRig.Proofs.Phase.History
import LoadRig.Proofs.Phase.Interruption
import LoadRig.Proofs.Phase.Progress
import LoadRig.Proofs.Phase.Records
import LoadRig.Proofs.Phase.Shares
import LoadRig.Proofs.Phase.Tallies
import LoadRig.Proofs.Plan
import LoadRig.Proofs.Plan.Division
import LoadRig.Proofs.Preflight.Target
import LoadRig.Proofs.Producer
import LoadRig.Proofs.Producer.Course
import LoadRig.Proofs.Queue
import LoadRig.Proofs.Queue.Course
import LoadRig.Proofs.Random.Uniform
import LoadRig.Proofs.Retry.Attempts
import LoadRig.Proofs.Retry.Backoff
import LoadRig.Proofs.Retry.Course
import LoadRig.Proofs.Retry.Outcome
import LoadRig.Proofs.Run.Accounts
import LoadRig.Proofs.Run.Interruption
import LoadRig.Proofs.Sender.Account
import LoadRig.Proofs.Sender.Course
import LoadRig.Proofs.Sender.Effort
import LoadRig.Proofs.Sender.Ledger
import LoadRig.Proofs.Sender.Message
import LoadRig.Proofs.Sender.Standing
import LoadRig.Proofs.Sender.Told
import LoadRig.Proofs.Sender.Writing
import LoadRig.Proofs.Socket.Client
import LoadRig.Proofs.Socket.Exchange
import LoadRig.Proofs.Socket.Slot
import LoadRig.Proofs.Statistics.Buckets
import LoadRig.Proofs.Statistics.Order
import LoadRig.Proofs.Statistics.Quotient
import LoadRig.Proofs.Statistics.Rank
import LoadRig.Proofs.Statistics.Rooms
import LoadRig.Proofs.Statistics.Tally
import LoadRig.Proofs.Text.Digits
import LoadRig.Proofs.Time.Calendar
import LoadRig.Proofs.Time.Timestamp
import LoadRig.Queue
import LoadRig.Random.ChaCha
import LoadRig.Random.Uniform
import LoadRig.Report.Console
import LoadRig.Report.OfJson
import LoadRig.Report.RunFile
import LoadRig.Report.ToJson
import LoadRig.Retry
import LoadRig.Samples
import LoadRig.Sender
import LoadRig.Socket.Client
import LoadRig.Socket.Handshake
import LoadRig.Socket.Peer
import LoadRig.Statistics
import LoadRig.Text.Blank
import LoadRig.Text.Debug
import LoadRig.Text.Digits
import LoadRig.Text.Fields
import LoadRig.Text.Number
import LoadRig.Time.Calendar
import LoadRig.Time.Duration
import LoadRig.Time.Rfc3339
import LoadRig.Toml.Document
import LoadRig.Toml.Item
import LoadRig.Toml.Scalar
import LoadRig.Uri
import LoadRig.Url.Basic
import LoadRig.Url.Escape
import LoadRig.Url.Host
import LoadRig.Url.Read

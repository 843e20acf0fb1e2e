import PlatformProxy.Counters
import PlatformProxy.Floating.Basic
import PlatformProxy.Floating.Shortest
import PlatformProxy.Floating.Text
import PlatformProxy.Frame.Codec
import PlatformProxy.Frame.Header
import PlatformProxy.Frame.Incoming
import PlatformProxy.Json.Basic
import PlatformProxy.Json.Fault
import PlatformProxy.Json.Lexer
import PlatformProxy.Json.Mismatch
import PlatformProxy.Json.Reader
import PlatformProxy.Json.Shape
import PlatformProxy.Json.Shaped
import PlatformProxy.Json.Writer
import PlatformProxy.Log
import PlatformProxy.Main
import PlatformProxy.Platform.Basic
import PlatformProxy.Platform.Recording
import PlatformProxy.Platform.Simulator
import PlatformProxy.Platform.Snapshot
import PlatformProxy.Platform.SnapshotFile
import PlatformProxy.Port
import PlatformProxy.Proofs.Frame.Accounts
import PlatformProxy.Proofs.Frame.Chunks
import PlatformProxy.Proofs.Frame.Hearing
import PlatformProxy.Proofs.Frame.LongHeaders
import PlatformProxy.Proofs.Frame.RoundTrip
import PlatformProxy.Proofs.Json.Depth
import PlatformProxy.Proofs.Json.Doubles
import PlatformProxy.Proofs.Json.Literals
import PlatformProxy.Proofs.Json.Records
import PlatformProxy.Proofs.Json.Rereading
import PlatformProxy.Proofs.Json.RoundTrip
import PlatformProxy.Proofs.Json.Scalar
import PlatformProxy.Proofs.Json.Values
import PlatformProxy.Proofs.Platform.Calls
import PlatformProxy.Proofs.Platform.Catalog
import PlatformProxy.Proofs.Platform.Downloading
import PlatformProxy.Proofs.Platform.Histories
import PlatformProxy.Proofs.Platform.Listing
import PlatformProxy.Proofs.Platform.Paging
import PlatformProxy.Proofs.Platform.Requests
import PlatformProxy.Proofs.Port
import PlatformProxy.Proofs.Query.Collecting
import PlatformProxy.Proofs.Query.Course
import PlatformProxy.Proofs.Query.Driving
import PlatformProxy.Proofs.Query.Pages
import PlatformProxy.Proofs.Query.Rows
import PlatformProxy.Proofs.Query.Searches
import PlatformProxy.Proofs.Query.Standings
import PlatformProxy.Proofs.Query.Steps
import PlatformProxy.Proofs.Rpc.Arguments
import PlatformProxy.Proofs.Rpc.Calling
import PlatformProxy.Proofs.Rpc.Classification
import PlatformProxy.Proofs.Rpc.Ending
import PlatformProxy.Proofs.Rpc.Fitting
import PlatformProxy.Proofs.Rpc.Forms
import PlatformProxy.Proofs.Rpc.Identity
import PlatformProxy.Proofs.Rpc.LevelAnswers
import PlatformProxy.Proofs.Rpc.Listener
import PlatformProxy.Proofs.Rpc.Network
import PlatformProxy.Proofs.Rpc.Reaching
import PlatformProxy.Proofs.Rpc.Serving
import PlatformProxy.Proofs.Rpc.Tagged
import PlatformProxy.Proofs.Rpc.Waiting
import PlatformProxy.Proofs.Session.Isolation
import PlatformProxy.Proofs.Session.Ledger
import PlatformProxy.Proofs.Session.Lifecycle
import PlatformProxy.Proofs.Session.Loop
import PlatformProxy.Proofs.Session.Outcomes
import PlatformProxy.Proofs.Settings.Layers
import PlatformProxy.Proofs.Settings.Overriding
import PlatformProxy.Proofs.Settings.Reading
import PlatformProxy.Proofs.Settings.Saving
import PlatformProxy.Proofs.Settings.Scalars
import PlatformProxy.Proofs.Text.Lowering
import PlatformProxy.Proofs.Yaml.Blocks
import PlatformProxy.Proofs.Yaml.Entries
import PlatformProxy.Proofs.Yaml.Literal
import PlatformProxy.Proofs.Yaml.Parsing
import PlatformProxy.Proofs.Yaml.Plain
import PlatformProxy.Proofs.Yaml.Quoted
import PlatformProxy.Proofs.Yaml.Running
import PlatformProxy.Proofs.Yaml.Scanning
import PlatformProxy.Proofs.Yaml.Texts
import PlatformProxy.Query.Basic
import PlatformProxy.Query.Leaderboard
import PlatformProxy.Query.Workshop
import PlatformProxy.Rpc.Caller
import PlatformProxy.Rpc.Connection
import PlatformProxy.Rpc.Envelope
import PlatformProxy.Rpc.Error
import PlatformProxy.Rpc.Exchange
import PlatformProxy.Rpc.Line
import PlatformProxy.Rpc.Listener
import PlatformProxy.Rpc.Method
import PlatformProxy.Rpc.Network
import PlatformProxy.Rpc.Params
import PlatformProxy.Rpc.Record
import PlatformProxy.Rpc.Server
import PlatformProxy.Rpc.Service
import PlatformProxy.Session
import PlatformProxy.Settings.Basic
import PlatformProxy.Settings.Environment
import PlatformProxy.Settings.File
import PlatformProxy.Settings.Layer
import PlatformProxy.Settings.Reading
import PlatformProxy.Settings.Store
import PlatformProxy.Startup
import PlatformProxy.Tags
import PlatformProxy.Text.Blank
import PlatformProxy.Text.CaseTable
import PlatformProxy.Text.CharSet
import PlatformProxy.Text.Digit
import PlatformProxy.Text.Lowercase
import PlatformProxy.Text.Quoted
import PlatformProxy.Text.Utf8
import PlatformProxy.Text.VisibleTable
import PlatformProxy.Yaml.Core
import PlatformProxy.Yaml.Cursor
import PlatformProxy.Yaml.Node
import PlatformProxy.Yaml.Property
import PlatformProxy.Yaml.Reading
import PlatformProxy.Yaml.ScalarText
import PlatformProxy.Yaml.Token
import PlatformProxy.Yaml.Tokens
import PlatformProxy.Yaml.Writer

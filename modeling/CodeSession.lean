import CodeSession.Backend.Client
import CodeSession.Backend.Multipart
import CodeSession.Backend.Reply
import CodeSession.Backend.Url
import CodeSession.Choice
import CodeSession.Chore
import CodeSession.Config
import CodeSession.Decimal.Binary64
import CodeSession.Decimal.Reading
import CodeSession.Decimal.Shortest
import CodeSession.Folder.ContentType
import CodeSession.Folder.Path
import CodeSession.Folder.Selection
import CodeSession.Folder.Tree
import CodeSession.Json.Literal
import CodeSession.Json.Printer
import CodeSession.Json.Reader
import CodeSession.Json.Value
import CodeSession.Loop.Basic
import CodeSession.Loop.Clock
import CodeSession.Loop.Tracking
import CodeSession.Loop.Turn
import CodeSession.Main
import CodeSession.Model.Message
import CodeSession.Model.Record
import CodeSession.Model.SelectedFile
import CodeSession.Model.Status
import CodeSession.Model.Tab
import CodeSession.Page.Basic
import CodeSession.Page.Content
import CodeSession.Page.Element
import CodeSession.Page.Window
import CodeSession.Proofs.Loop.Queue
import CodeSession.Proofs.Loop.Stages
import CodeSession.Proofs.Loop.Turns
import CodeSession.Proofs.Session.Calls
import CodeSession.Proofs.Session.Fetching
import CodeSession.Proofs.Session.Guards
import CodeSession.Proofs.Session.Latest
import CodeSession.Proofs.Session.Messages
import CodeSession.Proofs.Session.Moves
import CodeSession.Proofs.Session.Steps
import CodeSession.Proofs.Session.Tidy
import CodeSession.Proofs.Session.Uploading
import CodeSession.Session.Basic
import CodeSession.Session.Behaviour
import CodeSession.Session.Chat
import CodeSession.Session.Host
import CodeSession.Session.Ingest
import CodeSession.Session.Inspection
import CodeSession.Session.World
import CodeSession.Startup
import CodeSession.Tabs
import CodeSession.Text.Blank
import CodeSession.Text.Charset
import CodeSession.Text.Digits
import CodeSession.Text.Parts
import CodeSession.Text.Points
import CodeSession.Text.Printable
import CodeSession.Text.Quoted
import CodeSession.Text.Upper
import CodeSession.Text.Utf8
import CodeSession.Text.Wide
import CodeSession.Validation.Field
import CodeSession.Validation.Issue
import CodeSession.Validation.Number
import CodeSession.Proofs.Session.Frozen
import CodeSession.Proofs.Loop.Watching
import CodeSession.Proofs.Session.Loading
import CodeSession.Proofs.Session.Ingesting
import CodeSession.Proofs.Session.Shutdown
import CodeSession.Proofs.Session.Dialogue
import CodeSession.Proofs.Session.Answered
import CodeSession.Proofs.Session.Exchange
import CodeSession.Proofs.Session.Lifecycle
import CodeSession.Proofs.Loop.Timing
import CodeSession.Proofs.Session.Outside
import CodeSession.Proofs.Session.Punctual
import CodeSession.Proofs.Session.Selections
import CodeSession.Proofs.Loop.Settling
import CodeSession.Proofs.Loop.Image
import CodeSession.Proofs.Page.Moves
import CodeSession.Proofs.Page.Shadow
import CodeSession.Proofs.Page.Refresh
import CodeSession.Proofs.Tracking.Moves
import CodeSession.Proofs.Tracking.Acts
import CodeSession.Proofs.Tracking.Books
import CodeSession.Proofs.Tracking.Shutting
import CodeSession.Proofs.Tracking.Fair
import CodeSession.Proofs.Tracking.Idle
import CodeSession.Proofs.Tracking.Closing
import CodeSession.Proofs.Text.Utf8
import CodeSession.Proofs.Backend.Outcome
import CodeSession.Proofs.Json.Grammar
import CodeSession.Proofs.Json.Reading
import CodeSession.Proofs.Json.Depth
import CodeSession.Proofs.Json.Printing
import CodeSession.Proofs.Page.Records
import CodeSession.Proofs.Session.Replay
import CodeSession.Proofs.Session.Reckoning
import CodeSession.Proofs.Session.Independence
import CodeSession.Proofs.Model.Payload
import CodeSession.Proofs.Folder.Trees
import CodeSession.Proofs.Folder.Relisting
import CodeSession.Proofs.Folder.Paths
import CodeSession.Proofs.Folder.Listing
import CodeSession.Proofs.Folder.Failures
import CodeSession.Proofs.Loop.Apart
import CodeSession.Proofs.Session.Lone
import CodeSession.Proofs.Page.Choosing
import CodeSession.Proofs.Loop.Erasure
import CodeSession.Proofs.Session.Erasure
import CodeSession.Proofs.Session.Folders
import CodeSession.Proofs.Config.Sources
import CodeSession.Proofs.Config.Address
import CodeSession.Proofs.Config.Ranges
import CodeSession.Proofs.Decimal.Plain
import CodeSession.Proofs.Config.Agreement
import CodeSession.Proofs.Text.Cutting
import CodeSession.Proofs.Backend.Upload
import CodeSession.Proofs.Tabs.Notices
import CodeSession.Proofs.Tabs.Rounds
import CodeSession.Proofs.Tabs.Nesting
import CodeSession.Proofs.Page.Failures
import CodeSession.Proofs.Page.Inputs
import CodeSession.Proofs.Backend.Filenames
import CodeSession.Proofs.Folder.Naming
import CodeSession.Proofs.Session.Filenames

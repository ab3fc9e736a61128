import FormPage.Text.Blank
import FormPage.Text.Ascii
import FormPage.Text.Integer
import FormPage.OrderedMap
import FormPage.Document.Tag
import FormPage.Document.Style
import FormPage.Document.Basic
import FormPage.Document.Walk
import FormPage.Document.Query
import FormPage.Document.Edit
import FormPage.Document.Layout
import FormPage.Row.Label
import FormPage.Row.IndexedName
import FormPage.Row.Repeat
import FormPage.Submission.Intent
import FormPage.Submission.FormBody
import FormPage.Submission.Collect
import FormPage.Submission.Request
import FormPage.Balloon.Placement
import FormPage.Balloon.Basic
import FormPage.Page.Event
import FormPage.Page.Bindings
import FormPage.Page.Options
import FormPage.Page.Basic
import FormPage.Number.Binary64
import FormPage.Number.Shortest
import FormPage.Json.Basic
import FormPage.Json.Writer
import FormPage.Json.Number
import FormPage.Json.Reader
import FormPage.Text.Invisible
import FormPage.Text.Quoted
import FormPage.PageSpec.Basic
import FormPage.PageSpec.Encode
import FormPage.PageSpec.DecodeError
import FormPage.PageSpec.Decode
import FormPage.PageSpec.Format
import FormPage.Markup.Render
import FormPage.PageSpec.Build
import FormPage.PageSpec.Snapshot
import FormPage.Replay.Files
import FormPage.Yaml.Reader
import FormPage.Yaml.Writer
import FormPage.Toml.Reader
import FormPage.Toml.Writer
import FormPage.PageSpec.Load
import FormPage.PageSpec.Emit
import FormPage.Main
import FormPage.Proofs.Document.Path
import FormPage.Proofs.Document.Views
import FormPage.Proofs.Document.WellFormed
import FormPage.Proofs.Document.Calls
import FormPage.Proofs.Document.Graft
import FormPage.Proofs.Document.Search
import FormPage.Proofs.Document.Added
import FormPage.Proofs.Document.Operations
import FormPage.Proofs.Balloon.Parts
import FormPage.Proofs.Document.Tree
import FormPage.Proofs.Document.Alike
import FormPage.Proofs.Document.Position
import FormPage.Proofs.Document.Readings
import FormPage.Proofs.OrderedMap
import FormPage.Proofs.Page.Handlers
import FormPage.Proofs.PageSpec.Normal
import FormPage.Proofs.Page.Snapshot
import FormPage.Proofs.Document.Stable
import FormPage.Proofs.Balloon.Hosts
import FormPage.Proofs.Row.Insert
import FormPage.Proofs.Text.Decimal
import FormPage.Proofs.Row.Label
import FormPage.Proofs.Row.IndexedName
import FormPage.Proofs.Document.Arena
import FormPage.Proofs.Document.Reachable
import FormPage.Proofs.Row.Counting
import FormPage.Proofs.Submission.Posted
import FormPage.Proofs.Balloon.Edits
import FormPage.Proofs.Balloon.Showing
import FormPage.Proofs.Balloon.Owned
import FormPage.Proofs.Document.AlikeEdits
import FormPage.Proofs.PageSpec.Grow
import FormPage.Proofs.PageSpec.Faults
import FormPage.Proofs.Page.Load
import FormPage.Proofs.Page.Matching
import FormPage.Proofs.Page.Session
import FormPage.Proofs.Page.Course
import FormPage.Proofs.Page.Reload
import FormPage.Proofs.Page.Twins
import FormPage.Proofs.Page.Transparency
import FormPage.Proofs.Page.Ascent
import FormPage.Proofs.Page.Steady
import FormPage.Proofs.Page.Help
import FormPage.Proofs.Page.Placement
import FormPage.Proofs.Document.OffsetLinks
import FormPage.Proofs.Page.LoadedLinks
import FormPage.Proofs.Page.SingleBalloon
import FormPage.Proofs.Page.Described
import FormPage.Proofs.Json.Members
import FormPage.Proofs.PageSpec.RoundTrip
import FormPage.Proofs.Markup.Tags
import FormPage.Proofs.Markup.Outline
import FormPage.Proofs.Markup.Reading
import FormPage.Proofs.Json.Layout
import FormPage.Proofs.Json.Ordered
import FormPage.Proofs.Json.Reading
import FormPage.Proofs.PageSpec.Fits
import FormPage.Proofs.PageSpec.Written
import FormPage.Proofs.Page.Emitted
import FormPage.Proofs.Document.Moves
import FormPage.Proofs.Row.Site
import FormPage.Proofs.Row.Numbering
import FormPage.Proofs.Document.Relayout
import FormPage.Proofs.Submission.Protocol
import FormPage.Proofs.Submission.Repeated
import FormPage.Proofs.Page.Styles
import FormPage.Proofs.Markup.StartTags
import FormPage.Proofs.PageSpec.Keys
import FormPage.Proofs.PageSpec.UnknownKeys
import FormPage.Proofs.Submission.Body
import FormPage.Proofs.Submission.Prompt
import FormPage.Proofs.Balloon.Failing
import FormPage.Proofs.Document.Insertion
import FormPage.Proofs.Submission.Gained
import FormPage.Proofs.Page.Bubbling
import FormPage.Proofs.Balloon.Corner
import FormPage.Proofs.Page.Arrangement
import FormPage.Proofs.Document.Interchange
import FormPage.Proofs.Row.Apart
import FormPage.Proofs.Page.Groups
import FormPage.Proofs.Row.Mention
import FormPage.Proofs.Replay.Leave
import FormPage.Proofs.Replay.Protection
import FormPage.Proofs.Document.Traversal
import FormPage.Proofs.Document.Queries

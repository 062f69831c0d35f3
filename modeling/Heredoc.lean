import Heredoc.Assoc
import Heredoc.Buffer
import Heredoc.Command.Arguments
import Heredoc.Command.Basic
import Heredoc.Command.Run
import Heredoc.Decimal.Binary64
import Heredoc.Decimal.Shortest
import Heredoc.Diagnostic
import Heredoc.Diagnostic.Decode
import Heredoc.Duration
import Heredoc.Engine
import Heredoc.FileReport
import Heredoc.FileTree
import Heredoc.Json.Check
import Heredoc.Json.Decode
import Heredoc.Json.Number
import Heredoc.Json.Print
import Heredoc.Json.Problem
import Heredoc.Json.Token
import Heredoc.Main
import Heredoc.Marker
import Heredoc.Path
import Heredoc.Position
import Heredoc.Python.Reply
import Heredoc.Region
import Heredoc.Scan
import Heredoc.Schedule.Scheduler
import Heredoc.Schedule.Track
import Heredoc.Script
import Heredoc.Settings
import Heredoc.Settings.Decode
import Heredoc.Settings.File
import Heredoc.Settings.Toml
import Heredoc.Tag
import Heredoc.Text.Blank
import Heredoc.Text.Hidden
import Heredoc.Text.Integer
import Heredoc.Text.Lines
import Heredoc.Text.Offset
import Heredoc.Text.Quoted
import Heredoc.Text.Search
import Heredoc.Text.Utf8
import Heredoc.Toml.Document
import Heredoc.Toml.Moment
import Heredoc.Toml.Scalar
import Heredoc.Toml.Text
import Heredoc.Toml.Tree
import Heredoc.Toml.Value
import Heredoc.Validator.Basic
import Heredoc.Validator.Registry
import Heredoc.Validator.Scripted
import Heredoc.VersionCache
import Heredoc.Workspace
import Heredoc.Xml.Check
import Heredoc.Xml.Piece
import Heredoc.Yaml.Check
import Heredoc.Yaml.Cursor
import Heredoc.Yaml.Document
import Heredoc.Yaml.Event
import Heredoc.Yaml.Load
import Heredoc.Yaml.NodeTag
import Heredoc.Yaml.Problem
import Heredoc.Yaml.Scalar
import Heredoc.Yaml.Token
import Heredoc.Yaml.Value
import Heredoc.Proofs.Scan.Loop
import Heredoc.Proofs.Scan.Exactness
import Heredoc.Proofs.Engine.View
import Heredoc.Proofs.Engine.Segments
import Heredoc.Proofs.Engine.Interleaving
import Heredoc.Proofs.Schedule.Run
import Heredoc.Proofs.Schedule.Step
import Heredoc.Proofs.Schedule.Clock
import Heredoc.Proofs.Schedule.Serving
import Heredoc.Proofs.Schedule.Publication
import Heredoc.Proofs.Schedule.Convergence
import Heredoc.Proofs.Schedule.Closing
import Heredoc.Proofs.Schedule.Opening
import Heredoc.Proofs.Schedule.Counting
import Heredoc.Proofs.Schedule.Skipping
import Heredoc.Proofs.Schedule.Debounce
import Heredoc.Proofs.Schedule.Isolation
import Heredoc.Proofs.Schedule.Withholding
import Heredoc.Proofs.Schedule.Closed
import Heredoc.Proofs.Workspace.Run
import Heredoc.Proofs.Workspace.Latest
import Heredoc.Proofs.Scan.Bodies
import Heredoc.Proofs.Engine.Coordinates
import Heredoc.Proofs.Engine.Concatenation
import Heredoc.Proofs.Scan.Blocks
import Heredoc.Proofs.Decimal.Rounding
import Heredoc.Proofs.Json.KeyPlace
import Heredoc.Proofs.Json.Lexing
import Heredoc.Proofs.Json.Location
import Heredoc.Proofs.Json.Messages
import Heredoc.Proofs.Json.MovedComma
import Heredoc.Proofs.Json.Nesting
import Heredoc.Proofs.Json.NumberRange
import Heredoc.Proofs.Json.Numerals
import Heredoc.Proofs.Json.PlainFronts
import Heredoc.Proofs.Json.ProblemPlace
import Heredoc.Proofs.Json.Quoting
import Heredoc.Proofs.Json.Rendering
import Heredoc.Proofs.Json.RepeatedKeys
import Heredoc.Proofs.Json.RoundTrip
import Heredoc.Proofs.Json.TrailingComma
import Heredoc.Proofs.Json.Trees
import Heredoc.Proofs.Xml.Location
import Heredoc.Proofs.Xml.BlankBody
import Heredoc.Proofs.Xml.Elements
import Heredoc.Proofs.Xml.Verdict
import Heredoc.Proofs.Engine.Containment
import Heredoc.Proofs.Scan.Grammar
import Heredoc.Proofs.Engine.MissingLines
import Heredoc.Proofs.Scan.WholeWords
import Heredoc.Proofs.Engine.Disabling
import Heredoc.Proofs.Text.Offsets
import Heredoc.Proofs.Text.Fields
import Heredoc.Proofs.Python.Replies
import Heredoc.Proofs.Document.Versions
import Heredoc.Proofs.Text.LineEndings
import Heredoc.Proofs.Script.Paths
import Heredoc.Proofs.FileTree.Following
import Heredoc.Proofs.Script.Walk
import Heredoc.Proofs.Workspace.Selection
import Heredoc.Proofs.Assoc.Keys
import Heredoc.Proofs.Script.Order
import Heredoc.Proofs.Script.Listing
import Heredoc.Proofs.Workspace.Tracking
import Heredoc.Proofs.Command.Check
import Heredoc.Proofs.Text.Positions
import Heredoc.Proofs.Text.ByteOrder
import Heredoc.Proofs.Tag.Order
import Heredoc.Proofs.Tag.History

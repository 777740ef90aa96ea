import Logbook.Calendar.Date
import Logbook.Calendar.Duration
import Logbook.Calendar.Pattern.Basic
import Logbook.Calendar.Pattern.Reader
import Logbook.Calendar.Timestamp
import Logbook.Config.Basic
import Logbook.Config.Build
import Logbook.Config.Json
import Logbook.Decimal.Binary
import Logbook.Decimal.Layout
import Logbook.Decimal.Shortest
import Logbook.Diagnostic
import Logbook.Error.Chain
import Logbook.Error.Recorded
import Logbook.Event.Basic
import Logbook.Event.Block
import Logbook.Event.Pool
import Logbook.Event.Shown
import Logbook.Event.Step
import Logbook.Field.Basic
import Logbook.Field.Kind
import Logbook.Field.Payload
import Logbook.Field.Shape
import Logbook.Json.Decode
import Logbook.Json.Number
import Logbook.Json.Reader
import Logbook.Json.Value
import Logbook.Json.Writer
import Logbook.Level
import Logbook.Proofs.Decimal.Shortest
import Logbook.Proofs.Error.Layers
import Logbook.Proofs.Event.Hidden
import Logbook.Proofs.Event.Linked
import Logbook.Proofs.Event.Pool
import Logbook.Proofs.Field.Shape
import Logbook.Proofs.Field.Written
import Logbook.Proofs.Json.Number
import Logbook.Proofs.Json.Sorted
import Logbook.Proofs.Json.Token
import Logbook.Proofs.Json.Written
import Logbook.Proofs.Record.Lookup
import Logbook.Proofs.Record.Order
import Logbook.Proofs.Router.Capture
import Logbook.Proofs.Router.Failures
import Logbook.Proofs.Router.FanOut
import Logbook.Proofs.Router.Flush
import Logbook.Proofs.Router.Forwarding
import Logbook.Proofs.Router.History
import Logbook.Proofs.Router.Loans
import Logbook.Proofs.Router.Logging
import Logbook.Proofs.Router.Parcels
import Logbook.Proofs.Router.Segments
import Logbook.Proofs.Router.Table
import Logbook.Proofs.Router.Visits
import Logbook.Proofs.Router.Walk
import Logbook.Proofs.Sink.Lines
import Logbook.Proofs.Sink.Logged
import Logbook.Proofs.Stack.Library
import Logbook.Proofs.Stack.Located
import Logbook.Proofs.Stack.Printed
import Logbook.Proofs.Structured.ErrorText
import Logbook.Proofs.Structured.Labels
import Logbook.Proofs.Structured.Lifted
import Logbook.Proofs.Structured.Line
import Logbook.Proofs.Structured.Members
import Logbook.Proofs.Structured.Trace
import Logbook.Proofs.Structured.Untraced
import Logbook.Proofs.Template.Arguments
import Logbook.Proofs.Template.ColorForms
import Logbook.Proofs.Template.ColorTable
import Logbook.Proofs.Template.ColorVerb
import Logbook.Proofs.Template.Escape
import Logbook.Proofs.Template.FrameNormal
import Logbook.Proofs.Template.Fusion
import Logbook.Proofs.Template.Modifiers
import Logbook.Proofs.Template.Nested
import Logbook.Proofs.Template.Palette
import Logbook.Proofs.Template.Rows
import Logbook.Proofs.Template.Segments
import Logbook.Proofs.Template.SingleUse
import Logbook.Proofs.Template.Spelling
import Logbook.Proofs.Template.StyledVerb
import Logbook.Proofs.Template.TimeAsked
import Logbook.Proofs.Template.TimeShown
import Logbook.Proofs.Template.Trace
import Logbook.Proofs.Text.Utf8
import Logbook.Record.Basic
import Logbook.Record.Step
import Logbook.Router.Basic
import Logbook.Router.Dispatch
import Logbook.Router.Group
import Logbook.Router.Plan
import Logbook.Router.Session
import Logbook.Router.Signal
import Logbook.Sink.Basic
import Logbook.Sink.Ending
import Logbook.Sink.Folder
import Logbook.Sink.Layer
import Logbook.Sink.Memory
import Logbook.Stack.Backtrace
import Logbook.Stack.Frame
import Logbook.Structured
import Logbook.Template.Color
import Logbook.Template.ColorTable
import Logbook.Template.Directive
import Logbook.Template.Encoder
import Logbook.Template.FieldStyle
import Logbook.Template.FrameLayout
import Logbook.Template.LevelStyle
import Logbook.Template.Palette
import Logbook.Template.Program
import Logbook.Template.Source
import Logbook.Template.TimeLayout
import Logbook.Template.TraceStyle
import Logbook.Template.Verb
import Logbook.Template.VerbStyle
import Logbook.Text.Blank
import Logbook.Text.Hidden
import Logbook.Text.Number
import Logbook.Text.Quoted
import Logbook.Text.Split
import Logbook.Text.Utf8

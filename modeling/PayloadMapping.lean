import PayloadMapping.Action.Apply
import PayloadMapping.Action.Basic
import PayloadMapping.Action.Decode
import PayloadMapping.Action.Entry
import PayloadMapping.Action.Error
import PayloadMapping.Action.Events
import PayloadMapping.Action.Quantity
import PayloadMapping.Command.Arguments
import PayloadMapping.Command.Files
import PayloadMapping.Command.Help
import PayloadMapping.Command.Notice
import PayloadMapping.Command.Run
import PayloadMapping.Decode.Error
import PayloadMapping.Decode.Json
import PayloadMapping.Decode.Scalar
import PayloadMapping.Decode.Yaml
import PayloadMapping.Engine.Basic
import PayloadMapping.Engine.Context
import PayloadMapping.Engine.Evaluate
import PayloadMapping.Engine.Providers
import PayloadMapping.Engine.Route
import PayloadMapping.Json.Cursor
import PayloadMapping.Json.Fault
import PayloadMapping.Json.Numeral
import PayloadMapping.Json.Printer
import PayloadMapping.Json.Reader
import PayloadMapping.Json.Text
import PayloadMapping.Log.Event
import PayloadMapping.Main
import PayloadMapping.Mapping.Basic
import PayloadMapping.Mapping.Decode
import PayloadMapping.Mapping.Json
import PayloadMapping.Mapping.Load
import PayloadMapping.Mapping.Outline
import PayloadMapping.Mapping.Yaml
import PayloadMapping.Number.Basic
import PayloadMapping.Number.Double
import PayloadMapping.Number.Numeral
import PayloadMapping.Number.Shortest
import PayloadMapping.Number.Width
import PayloadMapping.Path.Access
import PayloadMapping.Path.Basic
import PayloadMapping.Text.Blank
import PayloadMapping.Text.Case
import PayloadMapping.Text.CaseMap
import PayloadMapping.Text.Cased
import PayloadMapping.Text.Letter
import PayloadMapping.Text.Pieces
import PayloadMapping.Text.Ranges
import PayloadMapping.Text.Visible
import PayloadMapping.Value.Basic
import PayloadMapping.Value.Fields
import PayloadMapping.Yaml.Document
import PayloadMapping.Yaml.Lexer
import PayloadMapping.Yaml.Mark
import PayloadMapping.Yaml.Name
import PayloadMapping.Yaml.Node
import PayloadMapping.Yaml.Part
import PayloadMapping.Yaml.Plain
import PayloadMapping.Yaml.Printer
import PayloadMapping.Yaml.Scalar
import PayloadMapping.Yaml.Style
import PayloadMapping.Yaml.Token
import PayloadMapping.Proofs.Evaluation.Change
import PayloadMapping.Proofs.Evaluation.Trace
import PayloadMapping.Proofs.Evaluation.Strictness
import PayloadMapping.Proofs.Evaluation.Loop
import PayloadMapping.Proofs.Path.Put
import PayloadMapping.Proofs.Evaluation.Schema
import PayloadMapping.Proofs.Number.Interval
import PayloadMapping.Proofs.Number.Text
import PayloadMapping.Proofs.Json.Compact
import PayloadMapping.Proofs.Evaluation.Ids
import PayloadMapping.Proofs.Evaluation.Ordering
import PayloadMapping.Proofs.Evaluation.Footprint
import PayloadMapping.Engine.Operation
import PayloadMapping.Proofs.Evaluation.Visits
import PayloadMapping.Proofs.Evaluation.Kept
import PayloadMapping.Proofs.Evaluation.Memory
import PayloadMapping.Proofs.Evaluation.Isolation
import PayloadMapping.Proofs.Evaluation.SeenIds
import PayloadMapping.Proofs.Action.Failure
import PayloadMapping.Proofs.Evaluation.Bounds
import PayloadMapping.Proofs.Command.Check
import PayloadMapping.Proofs.Evaluation.Flags
import PayloadMapping.Proofs.Json.Indented
import PayloadMapping.Proofs.Command.Several
import PayloadMapping.Proofs.Path.Text
import PayloadMapping.Proofs.Action.Written
import PayloadMapping.Proofs.Mapping.Field
import PayloadMapping.Proofs.Mapping.Written
import PayloadMapping.Proofs.Mapping.Yaml
import PayloadMapping.Proofs.Mapping.Json
import PayloadMapping.Proofs.Evaluation.Inlining
import PayloadMapping.Proofs.Evaluation.Routing
import PayloadMapping.Proofs.Evaluation.Lenience
import PayloadMapping.Proofs.Mapping.Superset
import PayloadMapping.Proofs.Path.InPlace
import PayloadMapping.Proofs.Command.Stages
import PayloadMapping.Proofs.Command.Atomic
import PayloadMapping.Proofs.Mapping.Grammar
import PayloadMapping.Proofs.Mapping.KnownKeys
import PayloadMapping.Proofs.Path.Reading
import PayloadMapping.Proofs.Path.Index
import PayloadMapping.Proofs.Path.Failure
import PayloadMapping.Proofs.Path.ReadBack
import PayloadMapping.Proofs.Number.Numeral
import PayloadMapping.Proofs.Action.Quantity
import PayloadMapping.Proofs.Action.Sum
import PayloadMapping.Proofs.Action.Cast
import PayloadMapping.Proofs.Action.Overflow
import PayloadMapping.Proofs.Action.WholeText
import PayloadMapping.Proofs.Action.Chain
import PayloadMapping.Proofs.Action.Keyed
import PayloadMapping.Proofs.Action.Flatten
import PayloadMapping.Proofs.Action.Position
import PayloadMapping.Proofs.Evaluation.Reports
import PayloadMapping.Proofs.Path.Segments
import PayloadMapping.Proofs.Text.Title
import PayloadMapping.Proofs.Value.Zeros

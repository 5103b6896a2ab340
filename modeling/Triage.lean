import Triage.Checkout
import Triage.Command
import Triage.Command.Arguments
import Triage.Command.Help
import Triage.Event
import Triage.Event.Codec
import Triage.Files.Glob
import Triage.Files.Ignore
import Triage.Files.Path
import Triage.Files.System
import Triage.Files.Walk
import Triage.Json.Decode
import Triage.Json.Printer
import Triage.Json.Reader
import Triage.Json.Value
import Triage.Language
import Triage.Main
import Triage.Number.Binary
import Triage.Number.Double
import Triage.Number.Single
import Triage.PathMap
import Triage.Pipeline
import Triage.Prompt
import Triage.Proofs.Answers
import Triage.Proofs.ByteOrder
import Triage.Proofs.CallAgreement
import Triage.Proofs.CallEvents
import Triage.Proofs.Cleanup
import Triage.Proofs.DecoratorAgreement
import Triage.Proofs.DecoratorEvents
import Triage.Proofs.DecoratorShape
import Triage.Proofs.Deliveries
import Triage.Proofs.Effects
import Triage.Proofs.EnclosedExtraction
import Triage.Proofs.EscapeUnits
import Triage.Proofs.EventIsolation
import Triage.Proofs.EventOrigins
import Triage.Proofs.Extensions
import Triage.Proofs.FileAccounts
import Triage.Proofs.Files.Ancestors
import Triage.Proofs.Files.Listing
import Triage.Proofs.Files.PathText
import Triage.Proofs.Files.ReadBack
import Triage.Proofs.Files.Removal
import Triage.Proofs.Files.Way
import Triage.Proofs.ImportedNames
import Triage.Proofs.Json.Decode
import Triage.Proofs.Json.Record
import Triage.Proofs.Json.RoundTrip
import Triage.Proofs.Json.Scalar
import Triage.Proofs.LastRecords
import Triage.Proofs.Latest
import Triage.Proofs.LineOrder
import Triage.Proofs.LiteralSpelling
import Triage.Proofs.LowerCase
import Triage.Proofs.NearestSettings
import Triage.Proofs.NumberLimits
import Triage.Proofs.PaddedAgreement
import Triage.Proofs.PaddedCalls
import Triage.Proofs.PaddedExtraction
import Triage.Proofs.PaddedReading
import Triage.Proofs.Padding
import Triage.Proofs.Parentheses
import Triage.Proofs.PathMap
import Triage.Proofs.Picking
import Triage.Proofs.Pipeline
import Triage.Proofs.Planning
import Triage.Proofs.Playback
import Triage.Proofs.Precedence
import Triage.Proofs.Refusal
import Triage.Proofs.Replies
import Triage.Proofs.ReportSurvival
import Triage.Proofs.ReportText
import Triage.Proofs.Retry
import Triage.Proofs.RetryLoop
import Triage.Proofs.ReusedReader
import Triage.Proofs.RewordedImports
import Triage.Proofs.RouteOffers
import Triage.Proofs.Scan
import Triage.Proofs.ScanOrder
import Triage.Proofs.SettingsText
import Triage.Proofs.StructureText
import Triage.Proofs.TextCuts
import Triage.Proofs.TextIndependence
import Triage.Proofs.Traversal
import Triage.Proofs.TreePaths
import Triage.Proofs.WalkOrder
import Triage.Python.Cursor
import Triage.Python.Extract
import Triage.Python.Identifier
import Triage.Python.IdentifierRanges
import Triage.Python.Kind
import Triage.Python.Literal
import Triage.Python.Parser
import Triage.Python.Parser.Assignment
import Triage.Python.Parser.Blame
import Triage.Python.Parser.Collections
import Triage.Python.Parser.Expression
import Triage.Python.Parser.Grammar
import Triage.Python.Parser.Layout
import Triage.Python.Parser.Number
import Triage.Python.Parser.Parameters
import Triage.Python.Parser.Pattern
import Triage.Python.Parser.SimpleStatement
import Triage.Python.Parser.State
import Triage.Python.Parser.Statement
import Triage.Python.Parser.Strings
import Triage.Python.Parser.TypeExpression
import Triage.Python.Source
import Triage.Python.Tree
import Triage.Record
import Triage.Record.Codec
import Triage.Report
import Triage.Report.Storage
import Triage.RouteRule
import Triage.Scan
import Triage.Service.Backend
import Triage.Service.Chat
import Triage.Service.Codec
import Triage.Service.Failure
import Triage.Service.Request
import Triage.Service.Retry
import Triage.Service.Status
import Triage.Settings
import Triage.Settings.Codec
import Triage.Settings.Discovery
import Triage.Settings.Template
import Triage.Source
import Triage.SourceFile
import Triage.StructureReport
import Triage.Text.Blank
import Triage.Text.Lower
import Triage.Text.Utf8
import Triage.Toml.Reader
import Triage.Toml.Scalar
import Triage.Toml.Value
import Triage.World

import Covenant.Binary64
import Covenant.Binary64.Integer
import Covenant.Binary64.Shortest
import Covenant.Builder
import Covenant.Combine
import Covenant.Contract
import Covenant.Contract.Status
import Covenant.Counter
import Covenant.Docs.Document
import Covenant.Docs.Export
import Covenant.Docs.Tree
import Covenant.Dotenv
import Covenant.Entries
import Covenant.Environment
import Covenant.Error
import Covenant.Error.Envelope
import Covenant.Exchange
import Covenant.Exchange.Context
import Covenant.Exchange.Extraction
import Covenant.Exchange.Pipeline
import Covenant.Exchange.RequestId
import Covenant.Exchange.Stage
import Covenant.Files
import Covenant.Instance
import Covenant.Json.Meaning
import Covenant.Json.Number
import Covenant.Json.Overlay
import Covenant.Json.Parts
import Covenant.Json.Printer
import Covenant.Json.Source
import Covenant.Json.Value
import Covenant.Log.Filter
import Covenant.Pattern
import Covenant.Pattern.CharSet
import Covenant.Pattern.Reading
import Covenant.Policy
import Covenant.Proofs.Acceptance
import Covenant.Proofs.Accounting
import Covenant.Proofs.Agreement
import Covenant.Proofs.Assembly
import Covenant.Proofs.Builders
import Covenant.Proofs.Collisions
import Covenant.Proofs.Combination
import Covenant.Proofs.Conformance
import Covenant.Proofs.Coverage
import Covenant.Proofs.Declarations
import Covenant.Proofs.Definitions
import Covenant.Proofs.Dispatch
import Covenant.Proofs.DocumentPaths
import Covenant.Proofs.DocumentText
import Covenant.Proofs.Enforcement
import Covenant.Proofs.Envelopes
import Covenant.Proofs.ExactValue
import Covenant.Proofs.Extraction
import Covenant.Proofs.FirstDefect
import Covenant.Proofs.FirstFailure
import Covenant.Proofs.Fixpoint
import Covenant.Proofs.Grouping
import Covenant.Proofs.IntegerLiterals
import Covenant.Proofs.IntegerText
import Covenant.Proofs.JsonText
import Covenant.Proofs.Layering
import Covenant.Proofs.Layers
import Covenant.Proofs.Location
import Covenant.Proofs.Matching
import Covenant.Proofs.Members
import Covenant.Proofs.Outcome
import Covenant.Proofs.Overrides
import Covenant.Proofs.PathFields
import Covenant.Proofs.Precedence
import Covenant.Proofs.Reachability
import Covenant.Proofs.Records
import Covenant.Proofs.Recovery
import Covenant.Proofs.Refusal
import Covenant.Proofs.Registration
import Covenant.Proofs.Rendering
import Covenant.Proofs.Replacement
import Covenant.Proofs.RootPath
import Covenant.Proofs.Rounding
import Covenant.Proofs.Selection
import Covenant.Proofs.Spelling
import Covenant.Proofs.Splitting
import Covenant.Proofs.Stages
import Covenant.Proofs.Strictness
import Covenant.Proofs.Tables
import Covenant.Proofs.Undeclared
import Covenant.Proofs.Verdicts
import Covenant.Record
import Covenant.Registry
import Covenant.Route.Method
import Covenant.Route.Template
import Covenant.Sample.Users
import Covenant.Schema
import Covenant.Service
import Covenant.Settings
import Covenant.Settings.Error
import Covenant.Settings.Key
import Covenant.Settings.Layer
import Covenant.Settings.Loading
import Covenant.Telemetry
import Covenant.Text.Blank
import Covenant.Text.Case
import Covenant.Text.CaseTable
import Covenant.Text.Decimal
import Covenant.Text.FileName
import Covenant.Text.Hex
import Covenant.Text.Integer
import Covenant.Text.Letters
import Covenant.Text.Split
import Covenant.Toml
import Covenant.Toml.Scalar
import Covenant.Validation
import Covenant.Validation.Coercion
import Covenant.Validation.Kinds
import Covenant.Yaml.Printer
import Covenant.Yaml.Scalar

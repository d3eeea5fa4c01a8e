import FlowMachine.Audit
import FlowMachine.Audit.Spec
import FlowMachine.Build
import FlowMachine.Build.Summary
import FlowMachine.Check
import FlowMachine.Command.Arguments
import FlowMachine.Command.Codegen
import FlowMachine.Command.Exit
import FlowMachine.Command.Table
import FlowMachine.Command.Timestamp
import FlowMachine.Command.Validate
import FlowMachine.Datum
import FlowMachine.Datum.Json
import FlowMachine.Datum.Yaml
import FlowMachine.Datum.Yaml.Cursor
import FlowMachine.Datum.Yaml.Fault
import FlowMachine.Datum.Yaml.Node
import FlowMachine.Datum.Yaml.Scalar
import FlowMachine.Datum.Yaml.Tag
import FlowMachine.Datum.Yaml.Text
import FlowMachine.Datum.Yaml.Token
import FlowMachine.Datum.Yaml.Value
import FlowMachine.Diagram.Assembly
import FlowMachine.Diagram.Block
import FlowMachine.Diagram.File
import FlowMachine.Diagram.Graph
import FlowMachine.Diagram.Shape
import FlowMachine.Diagram.Source
import FlowMachine.Diagram.Statement
import FlowMachine.Diagram.Statement.Reader
import FlowMachine.Digest
import FlowMachine.Disk
import FlowMachine.Emit
import FlowMachine.Emit.Boundaries
import FlowMachine.Emit.Demo
import FlowMachine.Emit.Layout
import FlowMachine.Emit.MachineModule
import FlowMachine.Emit.Service
import FlowMachine.Emit.Smoke
import FlowMachine.Emit.Transitions
import FlowMachine.Fault
import FlowMachine.Finding
import FlowMachine.Identifier
import FlowMachine.Label
import FlowMachine.Lint
import FlowMachine.Lint.Brackets
import FlowMachine.Lint.Chain
import FlowMachine.Lint.File
import FlowMachine.Machine
import FlowMachine.Machine.Derive
import FlowMachine.Main
import FlowMachine.Manifest
import FlowMachine.Manifest.Tracker
import FlowMachine.Module.Check
import FlowMachine.Module.Expression
import FlowMachine.Module.Number
import FlowMachine.Module.Pattern
import FlowMachine.Module.Reader
import FlowMachine.Module.Statement
import FlowMachine.Module.Token
import FlowMachine.Moment
import FlowMachine.Number.Binary64
import FlowMachine.Number.Numeral
import FlowMachine.Number.Total
import FlowMachine.Output
import FlowMachine.Path
import FlowMachine.Proofs.Audit.Findings
import FlowMachine.Proofs.Audit.Order
import FlowMachine.Proofs.Audit.Parsed
import FlowMachine.Proofs.Audit.Paths
import FlowMachine.Proofs.Audit.Stranded
import FlowMachine.Proofs.Build.Again
import FlowMachine.Proofs.Build.Apart
import FlowMachine.Proofs.Build.Batch
import FlowMachine.Proofs.Build.Covering
import FlowMachine.Proofs.Build.Forced
import FlowMachine.Proofs.Build.Frame
import FlowMachine.Proofs.Build.Overlap
import FlowMachine.Proofs.Build.Proposal
import FlowMachine.Proofs.Build.Rendering
import FlowMachine.Proofs.Build.Run
import FlowMachine.Proofs.Build.Session
import FlowMachine.Proofs.Build.Skip
import FlowMachine.Proofs.Command.ExitCode
import FlowMachine.Proofs.Datum.Json
import FlowMachine.Proofs.Diagram.Assembly
import FlowMachine.Proofs.Diagram.Blocks
import FlowMachine.Proofs.Diagram.Characters
import FlowMachine.Proofs.Diagram.Departures
import FlowMachine.Proofs.Diagram.Extents
import FlowMachine.Proofs.Diagram.Finality
import FlowMachine.Proofs.Diagram.Keywords
import FlowMachine.Proofs.Diagram.Majority
import FlowMachine.Proofs.Diagram.Meaning
import FlowMachine.Proofs.Diagram.Numbering
import FlowMachine.Proofs.Diagram.Reports
import FlowMachine.Proofs.Diagram.Silence
import FlowMachine.Proofs.Diagram.StateNames
import FlowMachine.Proofs.Diagram.Touches
import FlowMachine.Proofs.Diagram.Trails
import FlowMachine.Proofs.Diagram.WellFormed
import FlowMachine.Proofs.Diagram.Written
import FlowMachine.Proofs.Disk
import FlowMachine.Proofs.Disk.Acts
import FlowMachine.Proofs.Disk.Paving
import FlowMachine.Proofs.Disk.Writing
import FlowMachine.Proofs.Emit.Catalog
import FlowMachine.Proofs.Emit.Clients
import FlowMachine.Proofs.Emit.Derived
import FlowMachine.Proofs.Emit.Docstrings
import FlowMachine.Proofs.Emit.Documents
import FlowMachine.Proofs.Emit.Modules
import FlowMachine.Proofs.Emit.Places
import FlowMachine.Proofs.Emit.Printable
import FlowMachine.Proofs.Emit.Probes
import FlowMachine.Proofs.Emit.Scenarios
import FlowMachine.Proofs.Emit.Suites
import FlowMachine.Proofs.Emit.Tables
import FlowMachine.Proofs.Emit.Values
import FlowMachine.Proofs.Findings
import FlowMachine.Proofs.FirstPlaces
import FlowMachine.Proofs.Identifier
import FlowMachine.Proofs.Identifier.Display
import FlowMachine.Proofs.Identifier.Repeat
import FlowMachine.Proofs.Label
import FlowMachine.Proofs.Lint.Agreement
import FlowMachine.Proofs.Lint.Forms
import FlowMachine.Proofs.Lint.Grades
import FlowMachine.Proofs.Lint.Nesting
import FlowMachine.Proofs.Lint.Strictness
import FlowMachine.Proofs.Machine.Methods
import FlowMachine.Proofs.Machine.Names
import FlowMachine.Proofs.Machine.Transitions
import FlowMachine.Proofs.Manifest
import FlowMachine.Proofs.Manifest.Changes
import FlowMachine.Proofs.Manifest.Damage
import FlowMachine.Proofs.Manifest.Reopening
import FlowMachine.Proofs.Module.Arguments
import FlowMachine.Proofs.Module.Blocks
import FlowMachine.Proofs.Module.Data
import FlowMachine.Proofs.Module.Displays
import FlowMachine.Proofs.Module.Ends
import FlowMachine.Proofs.Module.Expressions
import FlowMachine.Proofs.Module.Forms
import FlowMachine.Proofs.Module.Heads
import FlowMachine.Proofs.Module.Kinds
import FlowMachine.Proofs.Module.Lines
import FlowMachine.Proofs.Module.Phrases
import FlowMachine.Proofs.Module.Pieces
import FlowMachine.Proofs.Module.Runs
import FlowMachine.Proofs.Module.Scanning
import FlowMachine.Proofs.Module.Steps
import FlowMachine.Proofs.Module.Taking
import FlowMachine.Proofs.Module.Templates
import FlowMachine.Proofs.Module.Tokens
import FlowMachine.Proofs.Module.Written
import FlowMachine.Proofs.Reachability
import FlowMachine.Proofs.Success
import FlowMachine.Proofs.Text.Lines
import FlowMachine.Proofs.Text.Literals
import FlowMachine.Proofs.Text.Marks
import FlowMachine.Proofs.Text.Null
import FlowMachine.Proofs.Text.Pieces
import FlowMachine.Reachability
import FlowMachine.Settings
import FlowMachine.Settings.File
import FlowMachine.Sources
import FlowMachine.Sources.Wildcard
import FlowMachine.Text.Blank
import FlowMachine.Text.CaseTable
import FlowMachine.Text.CasedTable
import FlowMachine.Text.Casing
import FlowMachine.Text.Control
import FlowMachine.Text.DigitTable
import FlowMachine.Text.HiddenTable
import FlowMachine.Text.Intervals
import FlowMachine.Text.Lines
import FlowMachine.Text.NameTable
import FlowMachine.Text.Quoted
import FlowMachine.Text.Search
import FlowMachine.Text.Torn
import FlowMachine.Text.Utf8
import FlowMachine.Text.Word
import FlowMachine.Text.WordTable

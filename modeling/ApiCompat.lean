import ApiCompat.CommandLine.Arguments
import ApiCompat.CommandLine.Code
import ApiCompat.CommandLine.Help
import ApiCompat.CommandLine.Options
import ApiCompat.CommandLine.Run
import ApiCompat.CommandLine.Surroundings
import ApiCompat.CommandLine.UsageError
import ApiCompat.Compatibility.Comparison
import ApiCompat.Compatibility.Member
import ApiCompat.Compatibility.Rules
import ApiCompat.Diagnostic.Category
import ApiCompat.Diagnostic.Log
import ApiCompat.Diagnostic.SeverityTable
import ApiCompat.Main
import ApiCompat.Markup.Attribute
import ApiCompat.Markup.Entity
import ApiCompat.Markup.Error
import ApiCompat.Markup.Reader
import ApiCompat.Proofs.Report.Printed
import ApiCompat.Proofs.Report.JsonText
import ApiCompat.Proofs.Report.TableText
import ApiCompat.Proofs.CommandLine.Presenting
import ApiCompat.Proofs.CommandLine.Judging
import ApiCompat.Proofs.Compatibility.Contract
import ApiCompat.Proofs.Compatibility.Renaming
import ApiCompat.Proofs.Compatibility.SelfComparison
import ApiCompat.Proofs.Compatibility.SupertypeSoundness
import ApiCompat.Proofs.Compatibility.Verdict
import ApiCompat.Proofs.Diagnostic.Recording
import ApiCompat.Proofs.Signature.Renaming
import ApiCompat.Proofs.Snapshot.Loading
import ApiCompat.Proofs.Snapshot.Renaming
import ApiCompat.Proofs.Snapshot.Supertypes
import ApiCompat.Proofs.Snapshot.WellFormed
import ApiCompat.Report.Color
import ApiCompat.Report.Content
import ApiCompat.Report.Format
import ApiCompat.Report.Json
import ApiCompat.Report.Table
import ApiCompat.Settings
import ApiCompat.Signature.Basic
import ApiCompat.Signature.Bounds
import ApiCompat.Signature.Erasure
import ApiCompat.Signature.Parser
import ApiCompat.Signature.Render
import ApiCompat.Signature.Scope
import ApiCompat.Snapshot.Basic
import ApiCompat.Snapshot.Declaration
import ApiCompat.Snapshot.Description
import ApiCompat.Snapshot.Hierarchy
import ApiCompat.Snapshot.Linking
import ApiCompat.Snapshot.Modifiers
import ApiCompat.Snapshot.Position
import ApiCompat.Snapshot.Walk
import ApiCompat.Text.Blank
import ApiCompat.Text.Bracket
import ApiCompat.Text.Columnless
import ApiCompat.Text.ControlSequence
import ApiCompat.Text.Decimal
import ApiCompat.Text.Line
import ApiCompat.Text.Mark
import ApiCompat.Text.Quoted
import ApiCompat.Text.Ranges
import ApiCompat.Text.Unprintable
import ApiCompat.Text.Utf8
import ApiCompat.Text.Wide
import ApiCompat.Text.Width
import ApiCompat.Toml.Quote
import ApiCompat.Toml.Reader
import ApiCompat.Toml.Scalar
import ApiCompat.Toml.Value
import ApiCompat.Compatibility.Session
import ApiCompat.Proofs.Compatibility.Session
import ApiCompat.Proofs.Compatibility.Severity
import ApiCompat.Proofs.Snapshot.Nesting
import ApiCompat.Proofs.Compatibility.Withdrawal
import ApiCompat.Proofs.Signature.Links
import ApiCompat.Proofs.Snapshot.Links
import ApiCompat.Proofs.Snapshot.Reordering
import ApiCompat.Proofs.Compatibility.OrderIndependence
import ApiCompat.Proofs.Snapshot.Growth
import ApiCompat.Proofs.Compatibility.Additivity
import ApiCompat.Proofs.Snapshot.Idempotence
import ApiCompat.Proofs.Snapshot.Construction
import ApiCompat.Proofs.Signature.RoundTrip
import ApiCompat.Proofs.Snapshot.Attachment
import ApiCompat.Proofs.Snapshot.Catalog
import ApiCompat.Proofs.CommandLine.Severities
import ApiCompat.Proofs.CommandLine.Status
import ApiCompat.Proofs.Signature.Shadowing
import ApiCompat.Proofs.Signature.Expansion
import ApiCompat.Proofs.Signature.Marking
import ApiCompat.Proofs.Signature.Parameters
import ApiCompat.Proofs.Signature.Arrays
import ApiCompat.Proofs.Compatibility.Inheritance
import ApiCompat.Proofs.Snapshot.BreadthFirst
import ApiCompat.Proofs.Snapshot.Subtyping
import ApiCompat.Proofs.Compatibility.Categories
import ApiCompat.Proofs.Compatibility.Demands
import ApiCompat.Proofs.Snapshot.Superclasses
import ApiCompat.Proofs.Compatibility.Throws
import ApiCompat.Proofs.Snapshot.Chains
import ApiCompat.Proofs.Snapshot.Cycles
import ApiCompat.Proofs.Snapshot.Kinds
import ApiCompat.Proofs.Diagnostic.Sorting
import ApiCompat.Proofs.Snapshot.LinkNames
import ApiCompat.Proofs.Snapshot.Positions
import ApiCompat.Proofs.Compatibility.Keys
import ApiCompat.Proofs.Signature.CanonicalForm
import ApiCompat.Proofs.Compatibility.Enclosure
import ApiCompat.Proofs.Text.Offsets

import ParseTree.Builder.Basic
import ParseTree.Builder.Session
import ParseTree.CommandLine.Arguments
import ParseTree.CommandLine.Run
import ParseTree.Document.Basic
import ParseTree.Document.TreeSpec
import ParseTree.Forest.Ancestry
import ParseTree.Forest.Basic
import ParseTree.Json.Numeral
import ParseTree.Json.Reader
import ParseTree.Json.Relaxed
import ParseTree.Json.Strict
import ParseTree.Json.Text
import ParseTree.Json.Value
import ParseTree.Main
import ParseTree.Node.Basic
import ParseTree.Node.Inspect
import ParseTree.Node.Label
import ParseTree.Node.Order
import ParseTree.Record
import ParseTree.Report.Census
import ParseTree.Report.Outline
import ParseTree.Report.Search
import ParseTree.Settings.Basic
import ParseTree.Text.Classes
import ParseTree.Text.Escape
import ParseTree.Token
import ParseTree.Visitor.Basic
import ParseTree.Visitor.Probe
import ParseTree.Walk.Event
import ParseTree.Word
import ParseTree.Proofs.Builder.Alone
import ParseTree.Proofs.Builder.Count
import ParseTree.Proofs.Builder.Likeness
import ParseTree.Proofs.Builder.Operations
import ParseTree.Proofs.Builder.Outcome
import ParseTree.Proofs.Builder.Pending
import ParseTree.Proofs.Builder.Refusal
import ParseTree.Proofs.Builder.Reports
import ParseTree.Proofs.Document.Build
import ParseTree.Proofs.Document.Description
import ParseTree.Proofs.Document.FirstFit
import ParseTree.Proofs.Document.References
import ParseTree.Proofs.Document.Tokens
import ParseTree.Proofs.Forest.Adoption
import ParseTree.Proofs.Forest.Ancestry
import ParseTree.Proofs.Forest.Links
import ParseTree.Proofs.Json.Fields
import ParseTree.Proofs.Json.Lexemes
import ParseTree.Proofs.Json.Reading
import ParseTree.Proofs.Node.Bracketed
import ParseTree.Proofs.Node.Distinct
import ParseTree.Proofs.Node.Reading
import ParseTree.Proofs.Report.Census
import ParseTree.Proofs.Report.Lines
import ParseTree.Proofs.Report.Outline
import ParseTree.Proofs.Report.Search
import ParseTree.Proofs.Session.Ancestry
import ParseTree.Proofs.Session.Count
import ParseTree.Proofs.Session.Growth
import ParseTree.Proofs.Session.Independence
import ParseTree.Proofs.Session.Listing
import ParseTree.Proofs.Session.Reattachment
import ParseTree.Proofs.Session.Reports
import ParseTree.Proofs.Session.Runs
import ParseTree.Proofs.Session.Spans
import ParseTree.Proofs.Session.Steps
import ParseTree.Proofs.Settings.Lookup
import ParseTree.Proofs.Settings.Lossless
import ParseTree.Proofs.Span.Unions
import ParseTree.Proofs.Visitor.Course
import ParseTree.Proofs.Visitor.FirstFound
import ParseTree.Proofs.Visitor.InTurn
import ParseTree.Proofs.Visitor.Leaves
import ParseTree.Proofs.Visitor.Numbering
import ParseTree.Proofs.Walk.Events
import ParseTree.Proofs.Walk.Nesting
import ParseTree.Proofs.Walk.Places
import ParseTree.Proofs.Walk.Replay
import ParseTree.Proofs.Walk.Tour

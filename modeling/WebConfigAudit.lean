import WebConfigAudit.Audit.Analyzer
import WebConfigAudit.Audit.Result
import WebConfigAudit.Audit.Run
import WebConfigAudit.Audit.Violation
import WebConfigAudit.Audit.Walk
import WebConfigAudit.CommandLine.Arguments
import WebConfigAudit.CommandLine.Init
import WebConfigAudit.CommandLine.Lint
import WebConfigAudit.CommandLine.Outcome
import WebConfigAudit.CommandLine.Run
import WebConfigAudit.Contract.Basic
import WebConfigAudit.Contract.Compile
import WebConfigAudit.Contract.Error
import WebConfigAudit.Contract.Exclusion
import WebConfigAudit.Contract.Load
import WebConfigAudit.Contract.Record
import WebConfigAudit.Contract.Template
import WebConfigAudit.Contract.Yaml
import WebConfigAudit.Element.Attribute
import WebConfigAudit.Element.Node
import WebConfigAudit.Element.Span
import WebConfigAudit.Element.Tag
import WebConfigAudit.FileTree.Basic
import WebConfigAudit.FileTree.Edit
import WebConfigAudit.FileTree.Error
import WebConfigAudit.FileTree.Path
import WebConfigAudit.FileTree.Walk
import WebConfigAudit.Glob.Match
import WebConfigAudit.Glob.Pattern
import WebConfigAudit.Json.Print
import WebConfigAudit.Json.Read
import WebConfigAudit.Json.Value
import WebConfigAudit.Main
import WebConfigAudit.Project
import WebConfigAudit.Proofs.AcceptedContract
import WebConfigAudit.Proofs.AgreeingReports
import WebConfigAudit.Proofs.AlikeNodes
import WebConfigAudit.Proofs.AttributeLookup
import WebConfigAudit.Proofs.AttributeOrder
import WebConfigAudit.Proofs.CommentedLine
import WebConfigAudit.Proofs.CompleteNodes
import WebConfigAudit.Proofs.ConfigurationNodes
import WebConfigAudit.Proofs.ConfiguredValues
import WebConfigAudit.Proofs.ContractMeaning
import WebConfigAudit.Proofs.DecidingStatement
import WebConfigAudit.Proofs.DecimalDigits
import WebConfigAudit.Proofs.DescribedViolations
import WebConfigAudit.Proofs.Destinations
import WebConfigAudit.Proofs.DirectivePlaces
import WebConfigAudit.Proofs.DirectiveReading
import WebConfigAudit.Proofs.DirectiveText
import WebConfigAudit.Proofs.DocumentPassage
import WebConfigAudit.Proofs.ElementLineBreaks
import WebConfigAudit.Proofs.ElementPlaces
import WebConfigAudit.Proofs.ElementRanges
import WebConfigAudit.Proofs.ElementStarts
import WebConfigAudit.Proofs.EntityBalance
import WebConfigAudit.Proofs.Evidence
import WebConfigAudit.Proofs.ExactAttribute
import WebConfigAudit.Proofs.Fallible
import WebConfigAudit.Proofs.FileOutcomes
import WebConfigAudit.Proofs.FiringRules
import WebConfigAudit.Proofs.FirstContract
import WebConfigAudit.Proofs.FlatReading
import WebConfigAudit.Proofs.GrownTree
import WebConfigAudit.Proofs.InterruptedObservation
import WebConfigAudit.Proofs.JsonText
import WebConfigAudit.Proofs.LetterCase
import WebConfigAudit.Proofs.LineBreaks
import WebConfigAudit.Proofs.LineEnds
import WebConfigAudit.Proofs.LineTable
import WebConfigAudit.Proofs.LosslessReport
import WebConfigAudit.Proofs.Lowercase
import WebConfigAudit.Proofs.MadeDirectories
import WebConfigAudit.Proofs.MarkupLineBreaks
import WebConfigAudit.Proofs.MarkupPassage
import WebConfigAudit.Proofs.MarkupStretches
import WebConfigAudit.Proofs.MergedResults
import WebConfigAudit.Proofs.NumeralChecks
import WebConfigAudit.Proofs.NumeralReaders
import WebConfigAudit.Proofs.Passage
import WebConfigAudit.Proofs.PathOrder
import WebConfigAudit.Proofs.PathPieces
import WebConfigAudit.Proofs.PathResolution
import WebConfigAudit.Proofs.PathsAbove
import WebConfigAudit.Proofs.PathsBelow
import WebConfigAudit.Proofs.PiecesInTurn
import WebConfigAudit.Proofs.PlainDirective
import WebConfigAudit.Proofs.PlainTree
import WebConfigAudit.Proofs.ProjectBeside
import WebConfigAudit.Proofs.ProjectScan
import WebConfigAudit.Proofs.PrologLineBreaks
import WebConfigAudit.Proofs.PrologStretches
import WebConfigAudit.Proofs.ProperRanges
import WebConfigAudit.Proofs.QuotedDirectives
import WebConfigAudit.Proofs.Records
import WebConfigAudit.Proofs.ReloadedContract
import WebConfigAudit.Proofs.RepeatedTargets
import WebConfigAudit.Proofs.Reports
import WebConfigAudit.Proofs.RequestedKinds
import WebConfigAudit.Proofs.RuleAddressing
import WebConfigAudit.Proofs.RuleCounts
import WebConfigAudit.Proofs.SarifLocations
import WebConfigAudit.Proofs.ScannedTag
import WebConfigAudit.Proofs.ScannerSafety
import WebConfigAudit.Proofs.Separation
import WebConfigAudit.Proofs.Sessions
import WebConfigAudit.Proofs.Spelling
import WebConfigAudit.Proofs.StretchReading
import WebConfigAudit.Proofs.SuppressedParts
import WebConfigAudit.Proofs.SuppressionSplit
import WebConfigAudit.Proofs.TagBytes
import WebConfigAudit.Proofs.TargetSelection
import WebConfigAudit.Proofs.TextBytes
import WebConfigAudit.Proofs.TextSearch
import WebConfigAudit.Proofs.TokenPlaces
import WebConfigAudit.Proofs.TokenRanges
import WebConfigAudit.Proofs.TreeWalk
import WebConfigAudit.Proofs.UncoloredReport
import WebConfigAudit.Proofs.ValueForms
import WebConfigAudit.Proofs.ViolatedRules
import WebConfigAudit.Proofs.ViolationOrder
import WebConfigAudit.Proofs.WellFormedContract
import WebConfigAudit.Proofs.WrittenDirective
import WebConfigAudit.Proofs.WrittenDocument
import WebConfigAudit.Proofs.WrittenTag
import WebConfigAudit.Report.Document
import WebConfigAudit.Report.Pretty
import WebConfigAudit.Report.Record
import WebConfigAudit.Report.Sarif
import WebConfigAudit.Report.Styled
import WebConfigAudit.Report.Summary
import WebConfigAudit.Rule.Basic
import WebConfigAudit.Rule.Builtin
import WebConfigAudit.Rule.Check
import WebConfigAudit.Rule.Compound
import WebConfigAudit.Rule.RuleSet
import WebConfigAudit.Source.Configuration
import WebConfigAudit.Source.StartTag
import WebConfigAudit.Suppression.Basic
import WebConfigAudit.Suppression.Directive
import WebConfigAudit.Target.Collection
import WebConfigAudit.Target.Eligibility
import WebConfigAudit.Text.Binary64
import WebConfigAudit.Text.CharClass
import WebConfigAudit.Text.Decimal
import WebConfigAudit.Text.Lowercase
import WebConfigAudit.Text.LowercaseTable
import WebConfigAudit.Text.Pieces
import WebConfigAudit.Text.Position
import WebConfigAudit.Text.Quoted
import WebConfigAudit.Text.QuotedTable
import WebConfigAudit.Xml.Character
import WebConfigAudit.Xml.Element
import WebConfigAudit.Xml.Markup
import WebConfigAudit.Xml.Namespace
import WebConfigAudit.Xml.Prolog
import WebConfigAudit.Xml.Reader
import WebConfigAudit.Xml.Reference
import WebConfigAudit.Yaml.Character
import WebConfigAudit.Yaml.Decoder
import WebConfigAudit.Yaml.Document
import WebConfigAudit.Yaml.Event
import WebConfigAudit.Yaml.Fault
import WebConfigAudit.Yaml.Lexer
import WebConfigAudit.Yaml.Mismatch
import WebConfigAudit.Yaml.Plain
import WebConfigAudit.Yaml.Property
import WebConfigAudit.Yaml.Scalar
import WebConfigAudit.Yaml.Token

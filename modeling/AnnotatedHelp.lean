import AnnotatedHelp.CommandLine.FileTree
import AnnotatedHelp.CommandLine.Request
import AnnotatedHelp.CommandLine.Run
import AnnotatedHelp.CommandLine.Script
import AnnotatedHelp.Constraint
import AnnotatedHelp.Count
import AnnotatedHelp.Deduction.Group
import AnnotatedHelp.Deduction.Inference
import AnnotatedHelp.Deduction.Members
import AnnotatedHelp.Definition.Basic
import AnnotatedHelp.Definition.Block
import AnnotatedHelp.Definition.Flag
import AnnotatedHelp.Definition.Key
import AnnotatedHelp.Definition.Name
import AnnotatedHelp.Definition.Property
import AnnotatedHelp.Diagnostic
import AnnotatedHelp.Draft.Basic
import AnnotatedHelp.Draft.Naming
import AnnotatedHelp.Draft.Position
import AnnotatedHelp.Json.Basic
import AnnotatedHelp.Json.Document
import AnnotatedHelp.Kind
import AnnotatedHelp.Main
import AnnotatedHelp.Model.Argument
import AnnotatedHelp.Model.Document
import AnnotatedHelp.Model.Member
import AnnotatedHelp.Output
import AnnotatedHelp.Problem
import AnnotatedHelp.Query
import AnnotatedHelp.Session
import AnnotatedHelp.Settings
import AnnotatedHelp.Settings.Loaded
import AnnotatedHelp.Settings.Saved
import AnnotatedHelp.Summary
import AnnotatedHelp.Template.Problem
import AnnotatedHelp.Template.Rendering
import AnnotatedHelp.Template.Token
import AnnotatedHelp.Template.Value
import AnnotatedHelp.Text.Character
import AnnotatedHelp.Text.Numeral
import AnnotatedHelp.Text.Token
import AnnotatedHelp.Yaml.Cursor
import AnnotatedHelp.Yaml.Document
import AnnotatedHelp.Yaml.Node
import AnnotatedHelp.Yaml.Printer
import AnnotatedHelp.Yaml.Resolution
import AnnotatedHelp.Yaml.Scalar
import AnnotatedHelp.Yaml.Token.Basic
import AnnotatedHelp.Yaml.Token.Lexer
import AnnotatedHelp.Yaml.Token.Scalar
import AnnotatedHelp.Yaml.Value
import AnnotatedHelp.Proofs.Outcome
import AnnotatedHelp.Proofs.Reading
import AnnotatedHelp.Proofs.Positions
import AnnotatedHelp.Proofs.Grouping
import AnnotatedHelp.Proofs.ModelGraph
import AnnotatedHelp.Proofs.Occurrence
import AnnotatedHelp.Proofs.Fields
import AnnotatedHelp.Proofs.Scanning
import AnnotatedHelp.Proofs.TokenSteps
import AnnotatedHelp.Proofs.BranchSelection
import AnnotatedHelp.Proofs.LineComposition
import AnnotatedHelp.Proofs.TemplateJoining
import AnnotatedHelp.Proofs.ConditionBalance
import AnnotatedHelp.Proofs.BlankInsensitivity
import AnnotatedHelp.Proofs.UntakenContent
import AnnotatedHelp.Proofs.Agreement
import AnnotatedHelp.Proofs.MemberDeduction
import AnnotatedHelp.Proofs.CountRanges
import AnnotatedHelp.Proofs.DefinitionOrder
import AnnotatedHelp.Proofs.SpecialMembers
import AnnotatedHelp.Proofs.InferredKinds
import AnnotatedHelp.Proofs.OptionNames
import AnnotatedHelp.Proofs.SessionCounters
import AnnotatedHelp.Proofs.SettingsAgreement
import AnnotatedHelp.Proofs.FirstRefusal
import AnnotatedHelp.Proofs.WellFormedArguments
import AnnotatedHelp.Proofs.ScanningSteps
import AnnotatedHelp.Proofs.Locations
import AnnotatedHelp.Proofs.JsonText
import AnnotatedHelp.Proofs.JsonRoundTrip
import AnnotatedHelp.Proofs.CountArithmetic
import AnnotatedHelp.Proofs.MemberOrigins
import AnnotatedHelp.Proofs.MemberCounts
import AnnotatedHelp.Proofs.SingleValues
import AnnotatedHelp.Proofs.LiteralArity
import AnnotatedHelp.Proofs.ConstraintNotation
import AnnotatedHelp.Proofs.WrittenProperties
import AnnotatedHelp.Proofs.DefaultArity
import AnnotatedHelp.Proofs.CommonTypes
import AnnotatedHelp.Proofs.DelimiterSpelling
import AnnotatedHelp.Proofs.SharedDeclarations
import AnnotatedHelp.Proofs.LineNumbers
import AnnotatedHelp.Proofs.VisibleLines
import AnnotatedHelp.Proofs.HiddenLines
import AnnotatedHelp.Proofs.RunOutcomes
import AnnotatedHelp.Proofs.ConditionalLines
import AnnotatedHelp.Proofs.RenderingSteps
import AnnotatedHelp.Proofs.ColumnAlignment
import AnnotatedHelp.Proofs.RenderedLines
import AnnotatedHelp.Proofs.CountNotation
import AnnotatedHelp.Proofs.LoneSeparators
import AnnotatedHelp.Proofs.FieldOrder
import AnnotatedHelp.Proofs.FlagWords
import AnnotatedHelp.Proofs.ConstraintWords
import AnnotatedHelp.Proofs.CheckingFiles
import AnnotatedHelp.Proofs.OptionCounts
import AnnotatedHelp.Proofs.DistinctNames
import AnnotatedHelp.Proofs.ImpliedNames

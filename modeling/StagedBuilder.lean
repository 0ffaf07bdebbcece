import StagedBuilder.Builder.Basic
import StagedBuilder.Builder.Construct
import StagedBuilder.Builder.Setter
import StagedBuilder.Builder.Source
import StagedBuilder.Check
import StagedBuilder.ClassName
import StagedBuilder.CommandLine.Command
import StagedBuilder.CommandLine.Options
import StagedBuilder.CommandLine.Run
import StagedBuilder.FileTree
import StagedBuilder.Files
import StagedBuilder.Generate
import StagedBuilder.GenerationError
import StagedBuilder.Identifier
import StagedBuilder.Implementation
import StagedBuilder.Imports
import StagedBuilder.Java.Declaration
import StagedBuilder.Java.Layout
import StagedBuilder.Java.Syntax
import StagedBuilder.Java.Uses
import StagedBuilder.JsonValue
import StagedBuilder.Main
import StagedBuilder.Manifest.Basic
import StagedBuilder.Manifest.Fault
import StagedBuilder.Manifest.Load
import StagedBuilder.Manifest.Schema
import StagedBuilder.Manifest.WellFormed
import StagedBuilder.NameTemplate
import StagedBuilder.Parameter
import StagedBuilder.Plan.Basic
import StagedBuilder.Plan.Claims
import StagedBuilder.Plan.Summary
import StagedBuilder.Proofs.KeyLaws
import StagedBuilder.Proofs.CheckLaws
import StagedBuilder.Proofs.ClassNameLaws
import StagedBuilder.Proofs.ClassSurface
import StagedBuilder.Proofs.Execution
import StagedBuilder.Proofs.ImportLaws
import StagedBuilder.Proofs.SetterLaws
import StagedBuilder.Proofs.StageLaws
import StagedBuilder.Proofs.TypeLaws
import StagedBuilder.Proofs.Typestate
import StagedBuilder.Proofs.WrittenLaws
import StagedBuilder.Report
import StagedBuilder.Sheet
import StagedBuilder.SourceFile
import StagedBuilder.SupportClasses
import StagedBuilder.Text.Blank
import StagedBuilder.Text.Case
import StagedBuilder.Text.Decimal
import StagedBuilder.Text.Difference
import StagedBuilder.Text.Filling
import StagedBuilder.Text.Letter
import StagedBuilder.Text.Quoted
import StagedBuilder.Text.Ranges
import StagedBuilder.Text.Search
import StagedBuilder.Toml.Document
import StagedBuilder.Toml.Quoted
import StagedBuilder.Toml.Scalar
import StagedBuilder.Toml.Table
import StagedBuilder.Toml.Value
import StagedBuilder.TypeExpr
import StagedBuilder.Vocabulary
import StagedBuilder.Proofs.ObjectLaws
import StagedBuilder.Proofs.MethodLaws
import StagedBuilder.Proofs.CreationLaws
import StagedBuilder.Proofs.CallLaws
import StagedBuilder.Proofs.EntryLaws
import StagedBuilder.Proofs.SessionLaws
import StagedBuilder.Proofs.ValueFlow
import StagedBuilder.Proofs.BlankLaws
import StagedBuilder.Proofs.BracketLaws
import StagedBuilder.Proofs.TraversalLaws
import StagedBuilder.Proofs.TypeGrammar
import StagedBuilder.Proofs.TypeReading
import StagedBuilder.Proofs.TypeSpacing
import StagedBuilder.Proofs.TypeRoundTrip
import StagedBuilder.Proofs.PlanLaws
import StagedBuilder.Proofs.PathLaws
import StagedBuilder.Proofs.ClaimLaws
import StagedBuilder.Proofs.WritingLaws
import StagedBuilder.Proofs.OwnNames
import StagedBuilder.Proofs.CaptureLaws
import StagedBuilder.Proofs.SummaryLaws
import StagedBuilder.Proofs.DottedNames
import StagedBuilder.Proofs.TemplateLaws
import StagedBuilder.Proofs.GeneratedNames
import StagedBuilder.Proofs.NullPolicyLaws
import StagedBuilder.Proofs.FaultLaws
import StagedBuilder.Proofs.TargetLaws
import StagedBuilder.Proofs.LayoutLaws
import StagedBuilder.Proofs.DistinctClasses
import StagedBuilder.Proofs.ErasureLaws
import StagedBuilder.Proofs.DistinctMethods
import StagedBuilder.Proofs.LocalNames
import StagedBuilder.Proofs.WildcardLaws
import StagedBuilder.Proofs.WordLaws
import StagedBuilder.Proofs.LineEnds
import StagedBuilder.Proofs.PassageLaws
import StagedBuilder.Proofs.CommentText
import StagedBuilder.Proofs.CommentLaws
import StagedBuilder.Proofs.OutsideLaws
import StagedBuilder.Proofs.InertDocs
import StagedBuilder.Proofs.FillingLaws
import StagedBuilder.Proofs.LineLaws
import StagedBuilder.Proofs.MirrorLaws
import StagedBuilder.Proofs.CollectorLaws
import StagedBuilder.Proofs.ValueExecution
import StagedBuilder.Proofs.ValueClassLaws
import StagedBuilder.Proofs.BaseLaws
import StagedBuilder.Proofs.ReferenceLaws
import StagedBuilder.Proofs.RunLaws
import StagedBuilder.Proofs.RenamedTexts
import StagedBuilder.Proofs.RenamingLaws
import StagedBuilder.Proofs.QualifyLaws
import StagedBuilder.Proofs.TightenedTexts
import StagedBuilder.Proofs.SpacingLaws
import StagedBuilder.Proofs.LiteralLaws
import StagedBuilder.Proofs.OriginLaws
import StagedBuilder.Proofs.SelectionLaws
import StagedBuilder.Proofs.ClaimRuns
import StagedBuilder.Proofs.ValidationLaws
import StagedBuilder.Proofs.UseLaws
import StagedBuilder.Proofs.BlockLaws
import StagedBuilder.Proofs.DifferenceLaws
import StagedBuilder.Proofs.RepetitionLaws
import StagedBuilder.Proofs.PlacementLaws
import StagedBuilder.Proofs.SchemaLaws
import StagedBuilder.Proofs.DocumentLaws
import StagedBuilder.Proofs.OutlineLaws
import StagedBuilder.Proofs.KeyOrder
import StagedBuilder.Proofs.SetterSites
import StagedBuilder.Proofs.ConcreteSyntax
import StagedBuilder.Proofs.SyntaxLaws
import StagedBuilder.Proofs.NameReading

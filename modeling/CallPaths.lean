import CallPaths.CommandLine.Help
import CallPaths.CommandLine.Reader
import CallPaths.Config
import CallPaths.Files.Walk
import CallPaths.Graph.Ancestors
import CallPaths.Graph.Chains
import CallPaths.Graph.Tree
import CallPaths.Locate
import CallPaths.Main
import CallPaths.Program
import CallPaths.Query
import CallPaths.Report.Text
import CallPaths.Source.Reader
import CallPaths.Source.Scan
import CallPaths.Proofs.Adjacency
import CallPaths.Proofs.Branches
import CallPaths.Proofs.VisitLimit
import CallPaths.Proofs.Exploration
import CallPaths.Proofs.SimplePaths
import CallPaths.Proofs.CallerChains
import CallPaths.Proofs.EntryTrees
import CallPaths.Proofs.RootPaths
import CallPaths.Proofs.Records
import CallPaths.Proofs.RecordedReports
import CallPaths.Proofs.Reachability
import CallPaths.Proofs.ChainMethods
import CallPaths.Proofs.Cycles
import CallPaths.Proofs.EdgeCounts
import CallPaths.Proofs.ScopeWidening
import CallPaths.Proofs.FileOrder
import CallPaths.Proofs.EntryPaths
import CallPaths.Proofs.Targets
import CallPaths.Proofs.TargetNames
import CallPaths.Proofs.TemplateShapes
import CallPaths.Proofs.Outcomes
import CallPaths.Proofs.BuildFigures
import CallPaths.Proofs.ImplementationRelation
import CallPaths.Proofs.MethodSearch
import CallPaths.Proofs.SearchOrder
import CallPaths.Proofs.Overloads
import CallPaths.Proofs.FieldChains
import CallPaths.Proofs.WrittenSignatures
import CallPaths.Proofs.Siblings
import CallPaths.Proofs.SpanningTrees
import CallPaths.Proofs.SinglePaths
import CallPaths.Proofs.PathCounts
import CallPaths.Proofs.ShownTrees
import CallPaths.Proofs.SnapshotIndexes
import CallPaths.Proofs.GrammarTrees
import CallPaths.Proofs.TokenPlaces
import CallPaths.Proofs.TreePlaces
import CallPaths.Proofs.MemberPlaces
import CallPaths.Proofs.DeclaredPlaces
import CallPaths.Proofs.RowTexts
import CallPaths.Proofs.LeadingComments
import CallPaths.Proofs.ErasedTypes
import CallPaths.Proofs.InheritedFields
import CallPaths.Proofs.LexicalScopes
import CallPaths.Proofs.ClosingMarks
import CallPaths.Proofs.LineRanges

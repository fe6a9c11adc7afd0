import CMinusAnalysis.Analysis.Basic
import CMinusAnalysis.Analysis.Checking
import CMinusAnalysis.Analysis.Declaring
import CMinusAnalysis.Arena
import CMinusAnalysis.Diagnostic.Basic
import CMinusAnalysis.Diagnostic.Kind
import CMinusAnalysis.Facts.Basic
import CMinusAnalysis.Facts.NodeTable
import CMinusAnalysis.Failure
import CMinusAnalysis.Journal.Entry
import CMinusAnalysis.Journal.Run
import CMinusAnalysis.Language.Operator
import CMinusAnalysis.Language.Type
import CMinusAnalysis.Report.Basic
import CMinusAnalysis.Report.Emit
import CMinusAnalysis.Report.Layout
import CMinusAnalysis.Report.Source
import CMinusAnalysis.Symbol.Bucket
import CMinusAnalysis.Symbol.Id
import CMinusAnalysis.Symbol.Listing
import CMinusAnalysis.Symbol.Table
import CMinusAnalysis.Text.ByteSink
import CMinusAnalysis.Text.Column
import CMinusAnalysis.Text.DisplayWidth
import CMinusAnalysis.Text.Lines
import CMinusAnalysis.Text.Utf8
import CMinusAnalysis.Tree.Basic
import CMinusAnalysis.Tree.Draft
import CMinusAnalysis.Tree.Forest
import CMinusAnalysis.Tree.Node
import CMinusAnalysis.Tree.Walk
import CMinusAnalysis.Proofs.Analysis.Abreast
import CMinusAnalysis.Proofs.Analysis.CallSites
import CMinusAnalysis.Proofs.Analysis.CalleeAgreement
import CMinusAnalysis.Proofs.Analysis.Cascades
import CMinusAnalysis.Proofs.Analysis.Compositionality
import CMinusAnalysis.Proofs.Analysis.Conditions
import CMinusAnalysis.Proofs.Analysis.FirstDeclarations
import CMinusAnalysis.Proofs.Analysis.FullTyping
import CMinusAnalysis.Proofs.Analysis.FunctionSymbols
import CMinusAnalysis.Proofs.Analysis.NameAgreement
import CMinusAnalysis.Proofs.Analysis.Passes
import CMinusAnalysis.Proofs.Analysis.Rechecking
import CMinusAnalysis.Proofs.Analysis.RecordedSignatures
import CMinusAnalysis.Proofs.Analysis.Renaming
import CMinusAnalysis.Proofs.Analysis.Returns
import CMinusAnalysis.Proofs.Analysis.Safety
import CMinusAnalysis.Proofs.Analysis.ScopeAgreement
import CMinusAnalysis.Proofs.Analysis.ScopeBalance
import CMinusAnalysis.Proofs.Analysis.ScopeMirror
import CMinusAnalysis.Proofs.Analysis.StorageSlots
import CMinusAnalysis.Proofs.Analysis.UseAccounts
import CMinusAnalysis.Proofs.Checking.Enclosing
import CMinusAnalysis.Proofs.Checking.Inference
import CMinusAnalysis.Proofs.Checking.Renaming
import CMinusAnalysis.Proofs.Checking.Reports
import CMinusAnalysis.Proofs.Checking.Standing
import CMinusAnalysis.Proofs.Checking.Step
import CMinusAnalysis.Proofs.Declaring.Balance
import CMinusAnalysis.Proofs.Declaring.Declarations
import CMinusAnalysis.Proofs.Declaring.Frames
import CMinusAnalysis.Proofs.Declaring.Functions
import CMinusAnalysis.Proofs.Declaring.Growth
import CMinusAnalysis.Proofs.Declaring.Journal
import CMinusAnalysis.Proofs.Declaring.Nesting
import CMinusAnalysis.Proofs.Declaring.Parameters
import CMinusAnalysis.Proofs.Declaring.Renaming
import CMinusAnalysis.Proofs.Declaring.Scopes
import CMinusAnalysis.Proofs.Declaring.Settling
import CMinusAnalysis.Proofs.Declaring.Signatures
import CMinusAnalysis.Proofs.Declaring.Standing
import CMinusAnalysis.Proofs.Declaring.Step
import CMinusAnalysis.Proofs.Declaring.Tables
import CMinusAnalysis.Proofs.Declaring.Uses
import CMinusAnalysis.Proofs.Diagnostic.Decoding
import CMinusAnalysis.Proofs.Diagnostic.Stream
import CMinusAnalysis.Proofs.Diagnostic.Wording
import CMinusAnalysis.Proofs.Facts.Records
import CMinusAnalysis.Proofs.Facts.Scopes
import CMinusAnalysis.Proofs.Outcome
import CMinusAnalysis.Proofs.Report.SourceLines
import CMinusAnalysis.Proofs.Symbol.Arrivals
import CMinusAnalysis.Proofs.Symbol.Frames
import CMinusAnalysis.Proofs.Symbol.Growth
import CMinusAnalysis.Proofs.Symbol.Hashing
import CMinusAnalysis.Proofs.Symbol.Index
import CMinusAnalysis.Proofs.Symbol.Listing
import CMinusAnalysis.Proofs.Symbol.Resolution
import CMinusAnalysis.Proofs.Symbol.Shadowing
import CMinusAnalysis.Proofs.Symbol.Signatures
import CMinusAnalysis.Proofs.Symbol.Storage
import CMinusAnalysis.Proofs.Text.Scanning
import CMinusAnalysis.Proofs.Text.Streams
import CMinusAnalysis.Proofs.Tree.Drafting
import CMinusAnalysis.Proofs.Tree.Grammar
import CMinusAnalysis.Proofs.Tree.LinearUse
import CMinusAnalysis.Proofs.Tree.Order
import CMinusAnalysis.Proofs.Tree.Paths
import CMinusAnalysis.Proofs.Tree.Quiet
import CMinusAnalysis.Proofs.Tree.Route
import CMinusAnalysis.Proofs.Tree.Shape
import CMinusAnalysis.Proofs.Tree.Trace
import CMinusAnalysis.Proofs.Tree.Unfolding
import CMinusAnalysis.Proofs.Tree.WalkOrder
import CMinusAnalysis.Proofs.Typing.Acceptance
import CMinusAnalysis.Proofs.Typing.Expressions
import CMinusAnalysis.Proofs.Typing.Inference
import CMinusAnalysis.Proofs.Typing.Judgement
import CMinusAnalysis.Proofs.Typing.Operands
import CMinusAnalysis.Proofs.Typing.Statements

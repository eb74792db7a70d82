import SemanticCheck.Location
import SemanticCheck.Diagnostic
import SemanticCheck.Tree.Operator
import SemanticCheck.Tree.Expr
import SemanticCheck.Tree.Program
import SemanticCheck.Ty
import SemanticCheck.Ty.Assignable
import SemanticCheck.Symbol
import SemanticCheck.Fault
import SemanticCheck.Outcome
import SemanticCheck.Scope
import SemanticCheck.SymbolTable
import SemanticCheck.Constant
import SemanticCheck.Settings
import SemanticCheck.Resolution
import SemanticCheck.Call
import SemanticCheck.Inference
import SemanticCheck.Store
import SemanticCheck.Declaration.Site
import SemanticCheck.Declaration.Variable
import SemanticCheck.Declaration.Function
import SemanticCheck.Body
import SemanticCheck.Analysis
import SemanticCheck.Report
import SemanticCheck.Tree.Visit
import SemanticCheck.Tree.Shorthand
import SemanticCheck.Hover
import SemanticCheck.Document.Value
import SemanticCheck.Document.Table
import SemanticCheck.Document.Text
import SemanticCheck.Document.Scalar
import SemanticCheck.Document.Statement
import SemanticCheck.Document
import SemanticCheck.Settings.Decode
import SemanticCheck.Proofs.Findings
import SemanticCheck.Proofs.Scope
import SemanticCheck.Proofs.SymbolTable
import SemanticCheck.Proofs.Persistence
import SemanticCheck.Proofs.Nearest
import SemanticCheck.Proofs.Unscoped
import SemanticCheck.Proofs.Lexical
import SemanticCheck.Proofs.Environment
import SemanticCheck.Proofs.Declaration
import SemanticCheck.Proofs.Steps
import SemanticCheck.Proofs.Refinement
import SemanticCheck.Proofs.Passes
import SemanticCheck.Proofs.Rejection
import SemanticCheck.Proofs.Failure
import SemanticCheck.Proofs.ValueUse
import SemanticCheck.Proofs.CallbackGate
import SemanticCheck.Proofs.Signature
import SemanticCheck.Proofs.TopLevel
import SemanticCheck.Proofs.Hoisting
import SemanticCheck.Proofs.Registered
import SemanticCheck.Proofs.ScopeTree
import SemanticCheck.Proofs.Account
import SemanticCheck.Proofs.Ordinary
import SemanticCheck.Proofs.Unreachable
import SemanticCheck.Proofs.BodyTyping
import SemanticCheck.Proofs.IndirectCall
import SemanticCheck.Proofs.SymbolInvariant
import SemanticCheck.Proofs.FunctionShape
import SemanticCheck.Proofs.ConstantRange
import SemanticCheck.Proofs.TypeFormation
import SemanticCheck.Proofs.Lockstep
import SemanticCheck.Proofs.Relaxation
import SemanticCheck.Proofs.ModuleNesting
import SemanticCheck.Proofs.Unplaced
import SemanticCheck.Proofs.Placement
import SemanticCheck.Proofs.History
import SemanticCheck.Proofs.Coherence
import SemanticCheck.Proofs.Typing
import SemanticCheck.Proofs.ExactValue
import SemanticCheck.Proofs.Folding
import SemanticCheck.Proofs.ScopePath
import SemanticCheck.Proofs.AllOrNothing
import SemanticCheck.Proofs.DirectCall
import SemanticCheck.Proofs.FoldedTyping
import SemanticCheck.Proofs.AssignmentOrder
import SemanticCheck.Proofs.Spelling
import SemanticCheck.Proofs.DeclarationReport
import SemanticCheck.Proofs.TypeText
import SemanticCheck.Proofs.ShownTypes
import SemanticCheck.Proofs.ReadingOrder
import SemanticCheck.Proofs.UndefinedNames
import SemanticCheck.Proofs.Description
import SemanticCheck.Proofs.HoverTarget
import SemanticCheck.Proofs.ParameterFaults
import SemanticCheck.Proofs.StrictChecks

import Formulary.Check
import Formulary.Check.CheckError
import Formulary.Check.Completion
import Formulary.Eval.Environment
import Formulary.Eval.Expression
import Formulary.Eval.Machine
import Formulary.Eval.Statement
import Formulary.Fault
import Formulary.Function
import Formulary.Host.Argument
import Formulary.Host.Call
import Formulary.Host.ContainerMethod
import Formulary.Host.Iteration
import Formulary.Host.Math
import Formulary.Host.Member
import Formulary.Host.Sorting
import Formulary.Host.Template
import Formulary.Host.TextMethod
import Formulary.Kind
import Formulary.Kind.Dispatch
import Formulary.Kind.Static
import Formulary.Method
import Formulary.Number.Arithmetic
import Formulary.Number.Decimal
import Formulary.Number.Double
import Formulary.Number.Format
import Formulary.Number.Integer
import Formulary.Number.Numeral
import Formulary.Operation
import Formulary.Operator
import Formulary.Primitive
import Formulary.Program
import Formulary.Proofs.AccessReading
import Formulary.Proofs.Accesses
import Formulary.Proofs.ArgumentNames
import Formulary.Proofs.Arguments
import Formulary.Proofs.BoxedVariables
import Formulary.Proofs.Checking
import Formulary.Proofs.Closings
import Formulary.Proofs.CompiledTrees
import Formulary.Proofs.Completeness
import Formulary.Proofs.Compound
import Formulary.Proofs.Conversion
import Formulary.Proofs.DecimalGrids
import Formulary.Proofs.DecimalTexts
import Formulary.Proofs.Declaring
import Formulary.Proofs.Denotation
import Formulary.Proofs.Division
import Formulary.Proofs.DivisionSigns
import Formulary.Proofs.DottedChains
import Formulary.Proofs.DoubleRounding
import Formulary.Proofs.Enclosing
import Formulary.Proofs.EntryPoints
import Formulary.Proofs.EscapedTexts
import Formulary.Proofs.Evaluation
import Formulary.Proofs.Execution
import Formulary.Proofs.ExpressionBodies
import Formulary.Proofs.Extrema
import Formulary.Proofs.Failures
import Formulary.Proofs.FewestDigits
import Formulary.Proofs.FilledSources
import Formulary.Proofs.FilledTokens
import Formulary.Proofs.FilledTrees
import Formulary.Proofs.FloatingTexts
import Formulary.Proofs.Folding
import Formulary.Proofs.ForEach
import Formulary.Proofs.ForLoops
import Formulary.Proofs.FreeWords
import Formulary.Proofs.Gaps
import Formulary.Proofs.Grammar
import Formulary.Proofs.IndexedStores
import Formulary.Proofs.InstanceTests
import Formulary.Proofs.IntegerLiterals
import Formulary.Proofs.IntegerTexts
import Formulary.Proofs.Isolation
import Formulary.Proofs.IteratorRounds
import Formulary.Proofs.IteratorSessions
import Formulary.Proofs.Iterators
import Formulary.Proofs.KeyEquality
import Formulary.Proofs.Lexing
import Formulary.Proofs.LiteralValues
import Formulary.Proofs.Lookahead
import Formulary.Proofs.LopsidedPowers
import Formulary.Proofs.Machine
import Formulary.Proofs.Magnitudes
import Formulary.Proofs.MaximalMunch
import Formulary.Proofs.Membership
import Formulary.Proofs.Mentions
import Formulary.Proofs.Narrowing
import Formulary.Proofs.NearestDecimals
import Formulary.Proofs.NearestInteger
import Formulary.Proofs.Nesting
import Formulary.Proofs.NumberOrder
import Formulary.Proofs.Numeral
import Formulary.Proofs.Operands
import Formulary.Proofs.OperatorFaults
import Formulary.Proofs.Overflow
import Formulary.Proofs.Parsing
import Formulary.Proofs.Positions
import Formulary.Proofs.PrintedFolding
import Formulary.Proofs.PrintedLexing
import Formulary.Proofs.Printing
import Formulary.Proofs.Promotion
import Formulary.Proofs.Quotes
import Formulary.Proofs.Reachability
import Formulary.Proofs.Reading
import Formulary.Proofs.Recasting
import Formulary.Proofs.Rechecking
import Formulary.Proofs.RelabeledChecking
import Formulary.Proofs.RelabeledFolding
import Formulary.Proofs.RelabeledGrammar
import Formulary.Proofs.RelabeledLiterals
import Formulary.Proofs.Relabeling
import Formulary.Proofs.RenamedActions
import Formulary.Proofs.RenamedCalls
import Formulary.Proofs.RenamedHosts
import Formulary.Proofs.RenamedKinds
import Formulary.Proofs.RenamedNumbers
import Formulary.Proofs.RenamedRuns
import Formulary.Proofs.RenamedStores
import Formulary.Proofs.Renaming
import Formulary.Proofs.ReturnedLiterals
import Formulary.Proofs.Returns
import Formulary.Proofs.RoundTrip
import Formulary.Proofs.Rounding
import Formulary.Proofs.RoundingOrder
import Formulary.Proofs.Runs
import Formulary.Proofs.Scanning
import Formulary.Proofs.Scoping
import Formulary.Proofs.Shifting
import Formulary.Proofs.SignatureOutline
import Formulary.Proofs.SignificantDigits
import Formulary.Proofs.SingleReading
import Formulary.Proofs.Slots
import Formulary.Proofs.Spacing
import Formulary.Proofs.Splitting
import Formulary.Proofs.Stages
import Formulary.Proofs.StatementCompleteness
import Formulary.Proofs.StatementLookahead
import Formulary.Proofs.StatementReading
import Formulary.Proofs.Substitution
import Formulary.Proofs.Targets
import Formulary.Proofs.Transfers
import Formulary.Proofs.Truncation
import Formulary.Proofs.Typing
import Formulary.Proofs.Unboxing
import Formulary.Proofs.Unfolding
import Formulary.Proofs.Untouched
import Formulary.Proofs.Variables
import Formulary.Proofs.Wrapping
import Formulary.Proofs.WrittenLiterals
import Formulary.Proofs.WrittenNames
import Formulary.Resolver
import Formulary.Signature
import Formulary.Source
import Formulary.Store
import Formulary.Substitution
import Formulary.Syntax.Fold
import Formulary.Syntax.Lexer
import Formulary.Syntax.Literal
import Formulary.Syntax.Parser
import Formulary.Syntax.Token
import Formulary.Syntax.Tree
import Formulary.Text.Blank
import Formulary.Text.Case
import Formulary.Text.Digit
import Formulary.Text.FreeStanding
import Formulary.Text.Printable
import Formulary.Text.Search
import Formulary.TypeTable
import Formulary.Value
import Formulary.Value.Constant
import Formulary.Value.Equality
import Formulary.Value.Hash
import Formulary.Value.Written

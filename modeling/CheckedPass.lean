import CheckedPass.Ascending
import CheckedPass.Env
import CheckedPass.Equivalence.Judge
import CheckedPass.Equivalence.Samples
import CheckedPass.Eval.Display
import CheckedPass.Eval.Error
import CheckedPass.Eval.Evaluator
import CheckedPass.Eval.Map
import CheckedPass.Eval.Multiset
import CheckedPass.Eval.Operand
import CheckedPass.Eval.Operation
import CheckedPass.Eval.Scalar
import CheckedPass.Eval.Seq
import CheckedPass.Eval.Set
import CheckedPass.Expr.Basic
import CheckedPass.Expr.Children
import CheckedPass.Expr.Fraction
import CheckedPass.Expr.FreeVars
import CheckedPass.Expr.Literal
import CheckedPass.Expr.Order
import CheckedPass.Expr.Text
import CheckedPass.Expr.Visit
import CheckedPass.Json.Basic
import CheckedPass.Json.Expr
import CheckedPass.Json.Numeral
import CheckedPass.Json.Operator
import CheckedPass.Json.Settings
import CheckedPass.Operator.Basic
import CheckedPass.Operator.Vocabulary
import CheckedPass.Pass.Basic
import CheckedPass.Pass.Catalogue
import CheckedPass.Pass.Contract
import CheckedPass.Pass.Everywhere
import CheckedPass.Pass.Negation
import CheckedPass.Proofs.Acceptance
import CheckedPass.Proofs.Agreement
import CheckedPass.Proofs.Answers
import CheckedPass.Proofs.Application
import CheckedPass.Proofs.Arithmetic
import CheckedPass.Proofs.Ascending
import CheckedPass.Proofs.Bisimulation
import CheckedPass.Proofs.Children
import CheckedPass.Proofs.Closed
import CheckedPass.Proofs.Comparisons
import CheckedPass.Proofs.Contract
import CheckedPass.Proofs.Depth
import CheckedPass.Proofs.Displays
import CheckedPass.Proofs.Enumeration
import CheckedPass.Proofs.Everywhere
import CheckedPass.Proofs.FirstOrder
import CheckedPass.Proofs.FreeVars
import CheckedPass.Proofs.Fuel
import CheckedPass.Proofs.Hereditary
import CheckedPass.Proofs.Integrity
import CheckedPass.Proofs.Interpretable
import CheckedPass.Proofs.LargerBudget
import CheckedPass.Proofs.LikeOperands
import CheckedPass.Proofs.Likeness
import CheckedPass.Proofs.Linearity
import CheckedPass.Proofs.LocalSoundness
import CheckedPass.Proofs.Maps
import CheckedPass.Proofs.Multisets
import CheckedPass.Proofs.Negation
import CheckedPass.Proofs.NormalForm
import CheckedPass.Proofs.Numeral
import CheckedPass.Proofs.Odometer
import CheckedPass.Proofs.Order
import CheckedPass.Proofs.Ordered
import CheckedPass.Proofs.Parametricity
import CheckedPass.Proofs.Phrases
import CheckedPass.Proofs.Preservation
import CheckedPass.Proofs.Reading
import CheckedPass.Proofs.RoundTrip
import CheckedPass.Proofs.Samples
import CheckedPass.Proofs.Scoping
import CheckedPass.Proofs.Sequences
import CheckedPass.Proofs.Sets
import CheckedPass.Proofs.Simulation
import CheckedPass.Proofs.Spelling
import CheckedPass.Proofs.Together
import CheckedPass.Proofs.Tree
import CheckedPass.Proofs.Valuation
import CheckedPass.Proofs.Verdict
import CheckedPass.Proofs.Visiting
import CheckedPass.Proofs.WellFormed
import CheckedPass.Schedule
import CheckedPass.Session
import CheckedPass.Text.Basic
import CheckedPass.Text.Hidden
import CheckedPass.Value.Basic
import CheckedPass.Value.Form
import CheckedPass.Value.Order
import CheckedPass.Value.Text

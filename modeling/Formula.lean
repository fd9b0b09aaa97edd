import Formula.Expr.Fold
import Formula.Main
import Formula.Number.Arithmetic
import Formula.Proofs.Token.Nesting
import Formula.Trace
import Formula.Proofs.Item.Groups
import Formula.Proofs.Item.Levels
import Formula.Proofs.Item.Calls
import Formula.Proofs.Reading.Limit
import Formula.Proofs.Reading.Groups
import Formula.Proofs.Expr.ExponentialForm
import Formula.Proofs.Grammar.Basic
import Formula.Proofs.Grammar.Soundness
import Formula.Proofs.Item.Phrases
import Formula.Proofs.Grammar.Completeness
import Formula.Proofs.Expr.Written
import Formula.Proofs.Grammar.Content
import Formula.Proofs.Text.Classes
import Formula.Proofs.Token.Runs
import Formula.Proofs.Token.Segmentation
import Formula.Proofs.Number.Numeral
import Formula.Proofs.Token.Faults
import Formula.Proofs.Expr.Reread
import Formula.Proofs.Number.Rounding
import Formula.Proofs.Number.Decimal
import Formula.Proofs.Reading.Printed
import Formula.Proofs.Reading.Origin
import Formula.Proofs.Reading.RoundTrip
import Formula.Proofs.Reading.Likeness
import Formula.Proofs.Reading.Rewriting
import Formula.Proofs.Reading.Substitution
import Formula.Proofs.Reading.Range
import Formula.Proofs.Reading.Spacing
import Formula.Proofs.Item.Depth
import Formula.Proofs.Item.Bisection
import Formula.Proofs.Item.Verdict
import Formula.Proofs.Reading.Relevance
import Formula.Proofs.Item.Binding
import Formula.Proofs.Item.Resolution
import Formula.Proofs.Reading.Unique
import Formula.Proofs.Number.Scientific
import Formula.Proofs.Expr.Walk
import Formula.Proofs.Expr.Meaning
import Formula.Proofs.Item.Outermost
import Formula.Proofs.View.Outline
import Formula.Proofs.Command
import Formula.Proofs.Setting
import Formula.Proofs.Number.Exact
import Formula.Proofs.Number.RoundTrip
import Formula.Proofs.Number.Nearest
import Formula.Proofs.Number.Arithmetic
import Formula.Proofs.Expr.Visits
import Formula.Proofs.Expr.Leaves

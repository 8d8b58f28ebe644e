import Formula.Main
import Formula.Proofs.Blanks
import Formula.Proofs.DefaultVariable
import Formula.Proofs.Diagnosis
import Formula.Proofs.Expr.Beginnings
import Formula.Proofs.Expr.Listing
import Formula.Proofs.Files
import Formula.Proofs.Latex.OpenEnds
import Formula.Proofs.Latex.Typeset
import Formula.Proofs.Lexis.Preference
import Formula.Proofs.Lexis.Tiling
import Formula.Proofs.NeededParens
import Formula.Proofs.NodeText
import Formula.Proofs.Parsing.Acceptance
import Formula.Proofs.Parsing.Earliest
import Formula.Proofs.Parsing.Extending
import Formula.Proofs.Parsing.Height
import Formula.Proofs.Parsing.Precedence
import Formula.Proofs.Parsing.Sessions
import Formula.Proofs.Parsing.Thresholds
import Formula.Proofs.Parsing.Unlimited
import Formula.Proofs.Reevaluation
import Formula.Proofs.Respelling
import Formula.Proofs.Simplify.Carrying
import Formula.Proofs.Simplify.SpanNesting
import Formula.Proofs.Value.AbsentVariable
import Formula.Proofs.Value.Simplification

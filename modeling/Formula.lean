import Formula.Proofs.Derivative.AbsentVariables
import Formula.Proofs.Derivative.DualNumbers
import Formula.Proofs.Derivative.Maximum
import Formula.Proofs.Derivative.Mirroring
import Formula.Proofs.Derivative.Obstacles
import Formula.Proofs.Derivative.Orders
import Formula.Proofs.Derivative.Powers
import Formula.Proofs.Expr.Bindings
import Formula.Proofs.Expr.Infinities
import Formula.Proofs.Expr.Walks
import Formula.Proofs.Limits
import Formula.Proofs.Render.Injectivity
import Formula.Proofs.Render.RawRoundTrip
import Formula.Proofs.Render.RoundTrip
import Formula.Proofs.Session.Histories
import Formula.Proofs.Session.Overrides
import Formula.Proofs.Simplify.Depth
import Formula.Proofs.Simplify.Ending
import Formula.Proofs.Simplify.Exactness
import Formula.Proofs.Simplify.Names
import Formula.Proofs.Simplify.NormalForm
import Formula.Proofs.Simplify.Redexes
import Formula.Proofs.Simplify.Refusals
import Formula.Proofs.Simplify.Shadowing
import Formula.Proofs.Simplify.Size
import Formula.Proofs.Terms
import Formula.Proofs.Token.Scanning
import Formula.Proofs.Yard.Conservation
import Formula.Proofs.Yard.Consistency
import Formula.Proofs.Yard.Isolation
import Formula.Proofs.Yard.Soundness
import Formula.Session

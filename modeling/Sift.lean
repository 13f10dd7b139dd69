import Sift.Token.Stream
import Sift.Cursor
import Sift.Value.Compare
import Sift.Value.Apply
import Sift.Value.Json
import Sift.Expr.Text
import Sift.Resolution.State
import Sift.Plan.Compile
import Sift.Plan.Explain
import Sift.Matcher
import Sift.Filter
import Sift.Standard
import Sift.Main
import Sift.Proofs.Walk.Outcome
import Sift.Proofs.Resolution.Marks
import Sift.Proofs.Resolution.Truth
import Sift.Proofs.Cursor
import Sift.Proofs.Plan.Parts
import Sift.Proofs.Plan.Fits
import Sift.Proofs.Walk.Moves
import Sift.Proofs.Walk.Loops
import Sift.Proofs.Walk.Safety
import Sift.Proofs.Document.Tree
import Sift.Proofs.Meaning.Plain
import Sift.Proofs.Meaning.Exact
import Sift.Proofs.Document.Layout
import Sift.Proofs.Plan.Scene
import Sift.Proofs.Walk.Right
import Sift.Proofs.Walk.Answers
import Sift.Proofs.Walk.Elements
import Sift.Proofs.Walk.Truth
import Sift.Proofs.Walk.Whole
import Sift.Proofs.Plan.Outline
import Sift.Proofs.Plan.Flat
import Sift.Proofs.Plan.Origin
import Sift.Proofs.Plan.Faithful
import Sift.Proofs.Plan.Drafts
import Sift.Proofs.Plan.Steps
import Sift.Proofs.Plan.Compiled
import Sift.Proofs.Matching
import Sift.Proofs.Grammar.Lexemes
import Sift.Proofs.Grammar.Documents
import Sift.Proofs.Plan.Formed
import Sift.Proofs.AnyBytes
import Sift.Proofs.Documents
import Sift.Proofs.Orders
import Sift.Proofs.Resolution.Kleene
import Sift.Proofs.Resolution.Accepted
import Sift.Proofs.Resolution.Stalls
import Sift.Proofs.Plan.Correspondence
import Sift.Proofs.Plan.Placement
import Sift.Proofs.Plan.Expected
import Sift.Proofs.Grammar.Numbers
import Sift.Proofs.Grammar.Tokens
import Sift.Proofs.Token.Stepping
import Sift.Proofs.Token.Nesting
import Sift.Proofs.Walk.Traversal
import Sift.Proofs.Walk.Shape
import Sift.Proofs.Walk.Landing
import Sift.Proofs.Walk.Turning
import Sift.Proofs.Walk.Confined
import Sift.Proofs.Walk.Captures
import Sift.Proofs.Filtering
import Sift.Proofs.Value.Preorder
import Sift.Proofs.Value.Trees
import Sift.Proofs.Value.Arithmetic
import Sift.Proofs.Value.Literals
import Sift.Proofs.Value.ByteStrings
import Sift.Proofs.Value.Settled
import Sift.Proofs.Expressions

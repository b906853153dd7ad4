import Attest.Text.Upper
import Attest.Value.Same
import Attest.Value.Text
import Attest.Pattern.Reading
import Attest.Source.Reading
import Attest.Binding
import Attest.Eval.Call
import Attest.Eval.Basic
import Attest.Standard
import Attest.Json.Basic
import Attest.Json.Reading
import Attest.Json.Value
import Attest.Combinator
import Attest.Defect
import Attest.Definition
import Attest.Difference
import Attest.Elevation
import Attest.Shape
import Attest.Plan
import Attest.Check.Basic
import Attest.Check.Strategy
import Attest.Assertion
import Attest.Expectation
import Attest.Yaml.Cursor
import Attest.Yaml.Scalar
import Attest.Yaml.Token
import Attest.Yaml.Node
import Attest.Session
import Attest.Settings.Basic
import Attest.Settings.Discovery
import Attest.Settings.Document
import Attest.Settings.Environment
import Attest.Proofs.Computation
import Attest.Proofs.Extension
import Attest.Proofs.Loop
import Attest.Proofs.Within
import Attest.Proofs.Variation
import Attest.Proofs.Reporting
import Attest.Proofs.Preservation
import Attest.Proofs.Quiet
import Attest.Proofs.Search
import Attest.Proofs.Fresh
import Attest.Proofs.Comprehension
import Attest.Proofs.Weakening
import Attest.Proofs.Layout
import Attest.Proofs.Order
import Attest.Proofs.Preorder
import Attest.Proofs.Reading
import Attest.Proofs.RoundTrip
import Attest.Proofs.Malformed
import Attest.Proofs.Evaluation
import Attest.Proofs.Nesting
import Attest.Proofs.Termination
import Attest.Proofs.Once
import Attest.Proofs.Representation
import Attest.Proofs.Message
import Attest.Proofs.Verdict
import Attest.Proofs.Subset
import Attest.Proofs.Trimming
import Attest.Proofs.Fusion
import Attest.Proofs.Lookup
import Attest.Proofs.Extensionality
import Attest.Proofs.FiniteMap
import Attest.Proofs.Symmetry
import Attest.Proofs.Merging
import Attest.Proofs.Locality
import Attest.Proofs.Cutting
import Attest.Proofs.Composition
import Attest.Proofs.Fault
import Attest.Proofs.SetLiteral
import Attest.Proofs.Rounding
import Attest.Proofs.Significand
import Attest.Proofs.Conversion
import Attest.Proofs.Shortest
import Attest.Proofs.Notation
import Attest.Proofs.Literal
import Attest.Proofs.Depth
import Attest.Proofs.Threading
import Attest.Proofs.Destructuring
import Attest.Proofs.Application
import Attest.Proofs.Binders
import Attest.Proofs.Lineage
import Attest.Proofs.Raising
import Attest.Proofs.Nearest
import Attest.Proofs.Comparison
import Attest.Proofs.Division
import Attest.Proofs.Arithmetic
import Attest.Proofs.Truncation
import Attest.Proofs.Discovery

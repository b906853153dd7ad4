import Attest.Difference
import Attest.Schema
/-!
# Engines

An engine is what checks are run with: how differences are told, if at all, and who knows
about schemas, if anyone.
-/

namespace Attest

/-- How the difference of an expected and an actual value is told. -/
abbrev Renderer := Value → Value → Difference

/-- What checks are run with. -/
structure Engine where
  renderer : Option Renderer := none
  schemas : Option Validator := none

namespace Engine

/-- An engine that tells differences, or not, and asks no one about schemas. -/
def basic (differences : Bool) : Engine :=
  { renderer := if differences then some Difference.structural else none }

/-- Whether differences are told. -/
def tellsDifferences (engine : Engine) : Bool := engine.renderer.isSome

/-- Whether a name is that of a schema. -/
def knowsSchema (engine : Engine) (name : String) : Bool :=
  engine.schemas.any (·.isRegistered name)

end Engine

end Attest

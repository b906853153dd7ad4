import Attest.Binding
import Attest.Source.Reading
/-!
# Defects

A defect is a mistake in how an assertion is written, found before or while it runs. It is
not an outcome of a check: an assertion with a defect has no events.
-/

namespace Attest

/-- What a combinator asks of the number of its arguments. -/
inductive Requirement where
  | even
  | atLeastOne
  | checkAndStep
  | bindingForm
  | expectedAndActual
  | exactlyOne
  | bindingsAndBody
  deriving DecidableEq, Repr

/-- The wording of a requirement. -/
def Requirement.text : Requirement → String
  | even => "an even number of forms"
  | atLeastOne => "at least 1"
  | checkAndStep => "at least one check/step pair"
  | bindingForm => "a binding form"
  | expectedAndActual => "at least one expected/actual pair"
  | exactlyOne => "exactly 1"
  | bindingsAndBody => "a binding vector and a body"

/-- What is wrong with the arguments of a combinator. -/
inductive ShapeFault where
  | bindingsNotAVector
  | noBody
  | letNotAVector
  | unsupportedModifier (name : String)
  | startsWithModifier
  deriving DecidableEq, Repr

/-- The wording of a fault. -/
def ShapeFault.text : ShapeFault → String
  | bindingsNotAVector => "from-each bindings must be a vector"
  | noBody => "from-each requires a body"
  | letNotAVector => ":let requires a binding vector"
  | unsupportedModifier name => "unsupported modifier :" ++ name
  | startsWithModifier => "from-each bindings must start with a binding, not a modifier"

/-- A mistake in how an assertion is written. -/
inductive Defect where
  /-- A combinator has the wrong number of arguments. -/
  | arity (form : Form) (requirement : Requirement) (found : Nat)
  /-- An argument of a combinator is not what it has to be. -/
  | shape (form : Form) (fault : ShapeFault)
  | binding (e : BindingError)
  /-- Something that is no collection was to be searched. -/
  | notACollection (found : Value)
  /-- A map was to be searched for something that is no map. -/
  | notAMap (found : Value)
  | unreadable (e : ReadError)

/-- The wording of a defect. -/
def Defect.message : Defect → String
  | arity form requirement found =>
    form.render ++ " expects " ++ requirement.text ++ ", got " ++ toString found ++
      " argument(s)"
  | shape form fault => form.render ++ ": " ++ fault.text
  | binding e => e.message
  | notACollection v =>
    "(in ...) requires a list, set or map, got " ++ v.typeName ++ ": " ++ v.render
  | notAMap v =>
    "(in ...) over a map requires a map as expected value, got " ++ v.typeName ++ ": " ++
      v.render
  | unreadable e => e.message

end Attest

import Attest.Combinator
import Attest.Defect
/-!
# The shape of an assertion

The symbol that leads a form decides how it is checked. An expected form groups several
expectations or states a single one (`Grouping`); an actual form goes through a collection
or is a single subject (`Traversal`). The actual side is looked at first, so that every
element of a collection is checked against the whole grouping (`Shape.parse`).
-/

namespace Attest

/-- Where a pipeline puts its value into a step. -/
inductive Thread where
  | first
  | last
  deriving DecidableEq, Repr

/-- The combinator of a pipeline. -/
def Thread.combinator : Thread → Combinator
  | first => .moreThreadFirst
  | last => .moreThreadLast

/-- How a pipeline is written. -/
def Thread.symbol (t : Thread) : String := t.combinator.symbol

/-- A clause of a traversal. -/
inductive Clause where
  /-- Goes through the elements of a source; `pattern` is the form that was read as
  `binding`. -/
  | each (pattern : Form) (binding : Binding) (source : Form)
  /-- Keeps only the iterations that pass a test. -/
  | test (form : Form)
  /-- Binds further names. -/
  | bind (bindings : List (Binding × Form))

/-- Whether a clause goes through a source. -/
def Clause.isEach : Clause → Bool
  | each .. => true
  | _ => false

/-- How an expected form is checked. -/
inductive Grouping where
  /-- As a single expectation. -/
  | primitive
  /-- Each of several expectations has to hold of the same value. -/
  | conjunction (expecteds : List Form)
  /-- Each expectation has to hold of what its step makes of the value. -/
  | pipeline (thread : Thread) (pairs : List (Form × Form))
  /-- Expected and actual forms are checked where the parts of the value have names. -/
  | destructure (binding : Binding) (pairs : List (Form × Form))

/-- How an actual form that goes through a collection does so. -/
inductive Traversal where
  /-- The expectation has to hold of the body in each iteration. -/
  | perElement (clauses : List Clause) (body : Form)
  /-- The expectation has to hold of some element. -/
  | contains (collection : Form)

/-- The shape of an assertion: how its actual form goes through a collection, or else how
its expected form is checked. -/
inductive Shape where
  | grouping (g : Grouping)
  | traversal (t : Traversal)

/-- The combinator that leads a form. -/
def Form.combinator? (form : Form) : Option Combinator :=
  form.head?.bind Combinator.ofSymbol?

/-- Forms two by two; `form` is the one that is at fault if their number is odd. -/
def formPairs (form : Form) (items : List Form) : Except Defect (List (Form × Form)) :=
  match pairUp? items with
  | some pairs => .ok pairs
  | none => .error (.arity form .even items.length)

/-- The binding pattern that a form writes. -/
def parseBinding (form : Form) : Except Defect Binding := (Binding.parse form).mapError .binding

namespace Grouping

/-- A conjunction. -/
def parseMore (form : Form) : Except Defect Grouping :=
  match form.args with
  | [] => .error (.arity form .atLeastOne 0)
  | expecteds => .ok (.conjunction expecteds)

/-- A pipeline. -/
def parsePipeline (thread : Thread) (form : Form) : Except Defect Grouping :=
  match form.args with
  | [] => .error (.arity form .checkAndStep 0)
  | args => do return .pipeline thread (← formPairs form args)

/-- Checks among the parts of a value. -/
def parseMoreOf (form : Form) : Except Defect Grouping :=
  match form.args with
  | [] => .error (.arity form .bindingForm 0)
  | pattern :: rest => do
    let binding ← parseBinding pattern
    match ← formPairs form rest with
    | [] => .error (.arity form .expectedAndActual 0)
    | pairs => .ok (.destructure binding pairs)

/-- How an expected form is checked. -/
def parse (form : Form) : Except Defect Grouping :=
  match form.combinator? with
  | some .more => parseMore form
  | some .moreThreadFirst => parsePipeline .first form
  | some .moreThreadLast => parsePipeline .last form
  | some .moreOf => parseMoreOf form
  | _ => .ok .primitive

end Grouping

namespace Traversal

/-- The patterns of bindings, each with the form of its value. -/
def parseBindings (pairs : List (Form × Form)) : Except Defect (List (Binding × Form)) :=
  pairs.mapM fun (target, value) => do return (← parseBinding target, value)

/-- One clause; `form` is the whole traversal. -/
def parseClause (form target value : Form) : Except Defect Clause :=
  match target with
  | .lit (.keyword "when") => .ok (.test value)
  | .lit (.keyword "let") =>
    match value with
    | .vector items => do return .bind (← parseBindings (← formPairs value items))
    | _ => .error (.shape form .letNotAVector)
  | .lit (.keyword name) => .error (.shape form (.unsupportedModifier name))
  | pattern => do return .each pattern (← parseBinding pattern) value

/-- The clauses of a traversal, of which the first has to go through a source. -/
def parseClauses (form : Form) (items : List Form) : Except Defect (List Clause) := do
  let pairs ← formPairs (.vector items) items
  let clauses ← pairs.mapM fun (target, value) => parseClause form target value
  if clauses.head?.any Clause.isEach then pure clauses
  else throw (.shape form .startsWithModifier)

/-- Several body forms as one. -/
def bodyForm : List Form → Form
  | [single] => single
  | many => .list (.sym "do" :: many)

/-- A traversal with one check for each iteration. -/
def parseFromEach (form : Form) : Except Defect Traversal :=
  match form.args with
  | [] => .error (.arity form .bindingsAndBody 0)
  | .vector items :: body =>
    if body.isEmpty then .error (.shape form .noBody)
    else do return .perElement (← parseClauses form items) (bodyForm body)
  | _ => .error (.shape form .bindingsNotAVector)

/-- A search. -/
def parseIn (form : Form) : Except Defect Traversal :=
  match form.args with
  | [collection] => .ok (.contains collection)
  | args => .error (.arity form .exactlyOne args.length)

/-- How an actual form goes through a collection, or nothing if it is a single subject. -/
def parse? (form : Form) : Option (Except Defect Traversal) :=
  match form.combinator? with
  | some .fromEach => some (parseFromEach form)
  | some .inside => some (parseIn form)
  | _ => none

end Traversal

namespace Shape

/-- The shape of an assertion; there is no actual form where the value is already known. -/
def parse (expected : Form) (actual? : Option Form) : Except Defect Shape :=
  match actual?.bind Traversal.parse? with
  | some t => t.map .traversal
  | none => (Grouping.parse expected).map .grouping

/-- The word for a shape. -/
def name : Shape → String
  | grouping .primitive => "plain"
  | grouping (.conjunction ..) => "conjunction"
  | grouping (.pipeline ..) => "pipeline"
  | grouping (.destructure ..) => "destructure"
  | traversal (.perElement ..) => "per-element"
  | traversal (.contains ..) => "contains-match"

/-- Whether nothing is combined. -/
def isPrimitive : Shape → Bool
  | grouping .primitive => true
  | _ => false

end Shape

end Attest

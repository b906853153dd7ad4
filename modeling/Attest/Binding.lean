import Attest.Scope
import Attest.Value.Collection
import Attest.Value.Text
/-!
# Taking values apart

A binding pattern is read from a form (`Binding.parse`) and applied to a value in a scope
(`Binding.bind`). `Binding.names` lists the names a pattern binds, in the order in which
they are bound.
-/

namespace Attest

/-- Why a form is no binding pattern. -/
inductive BindingFault where
  | notAPattern
  | restMissing
  | wholeNotASymbol
  | itemAfterRest
  | entryNotASymbol (keyword : String)
  | keyNotALiteral
  deriving DecidableEq, Repr

/-- The wording of a fault. -/
def BindingFault.message : BindingFault → String
  | notAPattern => "expected a symbol, vector or map"
  | restMissing => "& must be followed by a binding"
  | wholeNotASymbol => ":as must be followed by a symbol"
  | itemAfterRest => "only :as may follow the & binding"
  | entryNotASymbol keyword => ":" ++ keyword ++ " entries must be symbols"
  | keyNotALiteral => "map bindings must pair a binding with a literal key"

/-- A form that is no binding pattern, and why. -/
structure BindingError where
  form : Form
  fault : BindingFault

/-- The wording of a binding error. -/
def BindingError.message (e : BindingError) : String :=
  "invalid binding form " ++ e.form.render ++ ": " ++ e.fault.message

/-- The names that a list of symbols spells, or nothing if it holds another form. -/
def symbols? (forms : List Form) : Option (List String) :=
  forms.mapM fun
    | .sym name => some name
    | _ => none

/-- The parts of a positional pattern read so far, positions last first. -/
structure SeqDraft where
  items : List Binding := []
  rest : Option Binding := none
  whole : Option String := none

/-- The entries of a pattern by key read so far, last first. -/
structure MapDraft where
  entries : List (Binding × Value) := []
  whole : Option String := none

namespace Binding

mutual

/-- The pattern that a form writes. -/
def parse : Form → Except BindingError Binding
  | .sym n => if n == "&" then .error ⟨.sym n, .notAPattern⟩ else .ok (.name n)
  | .vector items => do
    let d ← parseSeq items items {}
    pure (.seq d.items.reverse d.rest d.whole)
  | .map entries => do
    let d ← parseMap entries entries {}
    pure (.map d.entries.reverse d.whole)
  | form => .error ⟨form, .notAPattern⟩

/-- Reads the rest of a positional pattern; `whole` is all of it. -/
def parseSeq (whole : List Form) : List Form → SeqDraft → Except BindingError SeqDraft
  | [], d => .ok d
  | .sym n :: more, d =>
    if n == "&" then
      match more with
      | [] => .error ⟨.vector whole, .restMissing⟩
      | target :: more => do
        let rest ← parse target
        parseSeq whole more { d with rest := some rest }
    else if d.rest.isSome then .error ⟨.vector whole, .itemAfterRest⟩
    else parseSeq whole more { d with items := .name n :: d.items }
  | .lit (.keyword "as") :: more, d =>
    match more with
    | .sym n :: more => parseSeq whole more { d with whole := some n }
    | _ => .error ⟨.vector whole, .wholeNotASymbol⟩
  | item :: more, d =>
    if d.rest.isSome then .error ⟨.vector whole, .itemAfterRest⟩
    else do
      let b ← parse item
      parseSeq whole more { d with items := b :: d.items }

/-- Reads the rest of a pattern by key; `whole` is all of it. -/
def parseMap (whole : List (Form × Form)) :
    List (Form × Form) → MapDraft → Except BindingError MapDraft
  | [], d => .ok d
  | (target, value) :: more, d =>
    match target, value with
    | .lit (.keyword "keys"), .vector names =>
      match symbols? names with
      | some ns =>
        parseMap whole more
          { d with entries := (ns.map fun n => (.name n, .keyword n)).reverse ++ d.entries }
      | none => .error ⟨.map whole, .entryNotASymbol "keys"⟩
    | .lit (.keyword "strs"), .vector names =>
      match symbols? names with
      | some ns =>
        parseMap whole more
          { d with entries := (ns.map fun n => (.name n, .str n)).reverse ++ d.entries }
      | none => .error ⟨.map whole, .entryNotASymbol "strs"⟩
    | .lit (.keyword "as"), .sym n => parseMap whole more { d with whole := some n }
    | _, .lit key => do
      let b ← parse target
      parseMap whole more { d with entries := (b, key) :: d.entries }
    | _, _ => .error ⟨.map whole, .keyNotALiteral⟩

end

/-- The number of arguments that a pattern of parameters admits, if it admits only one
number. -/
def arity? : Binding → Option Nat
  | .seq items none _ => some items.length
  | _ => none

mutual

/-- The names that a pattern binds, in order. -/
def names : Binding → List String
  | .name n => [n]
  | .seq items rest whole => namesOfItems items ++ namesOfRest rest ++ whole.toList
  | .map entries whole => namesOfEntries entries ++ whole.toList

/-- The names that several patterns bind. -/
def namesOfItems : List Binding → List String
  | [] => []
  | b :: bs => b.names ++ namesOfItems bs

/-- The names that the pattern for the rest binds. -/
def namesOfRest : Option Binding → List String
  | none => []
  | some b => b.names

/-- The names that the patterns of entries bind. -/
def namesOfEntries : List (Binding × Value) → List String
  | [] => []
  | (b, _) :: rest => b.names ++ namesOfEntries rest

end

/-- The error about a value that has no elements. -/
def notPositional (v : Value) : Thrown :=
  .argument ("cannot destructure " ++ v.typeName ++ " positionally: " ++ v.render)

/-- The error about a value that has no entries. -/
def notAMap (v : Value) : Thrown :=
  .argument ("cannot destructure " ++ v.typeName ++ " as a map: " ++ v.render)

/-- A scope in which the name for the whole value, if there is one, is bound. -/
def bindWhole (whole : Option String) (value : Value) (scope : Scope) : Scope :=
  match whole with
  | some n => scope.bind n value
  | none => scope

/-- What is left of the elements after the positions; `nil` if nothing is. -/
def remainder (elements : List Value) (positions : Nat) : Value :=
  if positions < elements.length then .list (elements.drop positions) else .nil

/-- The entries of a value that can be taken apart by key; `nil` has none. -/
def entriesOf : Value → Except Thrown (List (Value × Value))
  | .map entries => .ok entries
  | .nil => .ok []
  | v => .error (notAMap v)

mutual

/-- A scope in which the names of a pattern are bound to the parts of a value. -/
def bind : Binding → Value → Scope → Except Thrown Scope
  | .name n, value, scope => .ok (scope.bind n value)
  | .seq items rest whole, value, scope =>
    match value.elements? with
    | none => .error (notPositional value)
    | some elements => do
      let scope ← bindItems items elements scope
      let scope ← bindRest rest (remainder elements items.length) scope
      pure (bindWhole whole value scope)
  | .map entries whole, value, scope => do
    let found ← entriesOf value
    let scope ← bindEntries entries found scope
    pure (bindWhole whole value scope)

/-- Binds patterns to elements by position; a missing element is `nil`. -/
def bindItems : List Binding → List Value → Scope → Except Thrown Scope
  | [], _, scope => .ok scope
  | b :: bs, elements, scope => do
    let scope ← b.bind (elements.head?.getD .nil) scope
    bindItems bs elements.tail scope

/-- Binds the pattern for the rest, if there is one. -/
def bindRest : Option Binding → Value → Scope → Except Thrown Scope
  | none, _, scope => .ok scope
  | some b, value, scope => b.bind value scope

/-- Binds patterns to the entries under their keys; a missing entry is `nil`. -/
def bindEntries :
    List (Binding × Value) → List (Value × Value) → Scope → Except Thrown Scope
  | [], _, scope => .ok scope
  | (b, key) :: rest, found, scope => do
    let scope ← b.bind ((Entries.find? found key).getD .nil) scope
    bindEntries rest found scope

end

end Binding

end Attest

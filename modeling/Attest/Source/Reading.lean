import Attest.Pairs
import Attest.Source.Tree
import Attest.Value.Collection
/-!
# Reading forms

`Form.read` reads exactly one form from a text, `Form.readAll` every form. The text has to
be a forest before anything in it is looked at; then each tree becomes a form, children
before their collection. A set of literals is a literal; any other set is a call that
builds one.
-/

namespace Attest

open Source

/-- Why a text could not be read. -/
inductive ReadError where
  | syntaxFault (fault : SyntaxFault)
  /-- A map with a key that has no value. -/
  | oddMap (offset : Nat)
  | pattern (offset : Nat) (e : PatternError)
  /-- No form, where one was asked for. -/
  | missing (offset : Nat)
  /-- A second form, where one was asked for. -/
  | trailing (offset : Nat)
  deriving DecidableEq, Repr

namespace ReadError

/-- The byte offset of an error. -/
def offset : ReadError → Nat
  | syntaxFault fault => fault.offset
  | oddMap offset | missing offset | trailing offset => offset
  | pattern offset _ => offset

/-- The tokens with which a form can begin, as an error names them. -/
def formStarts : String :=
  "list, vector, map, set, regex, glob, string, keyword, number, or symbol"

/-- What was wrong. -/
def reason : ReadError → String
  | syntaxFault ⟨_, true⟩ => "expected " ++ formStarts
  | syntaxFault ⟨0, false⟩ => "expected program"
  | syntaxFault ⟨_, false⟩ => "expected EOI, " ++ formStarts
  | oddMap _ => "map literal must contain an even number of forms"
  | pattern _ e => e.message
  | missing _ => "expected a form, found end of input"
  | trailing _ => "unexpected trailing form"

/-- The whole wording. -/
def message (e : ReadError) : String :=
  "read error at offset " ++ toString e.offset ++ ": " ++ e.reason

end ReadError

variable [PatternReader]

/-- The form that a literal stands for. -/
def Source.Literal.toForm (offset : Nat) : Literal → Except ReadError Form
  | .regex body => patternForm .regex (offset + 2) body
  | .glob body => patternForm .glob (offset + 6) body
  | .text content => .ok (.lit (.str (String.ofList content)))
  | .keyword name => .ok (.lit (.keyword (String.ofList name)))
  | .number n => .ok (.lit (numberValue n))
  | .symbol name =>
    .ok (match String.ofList name with
      | "nil" => .lit .nil
      | "true" => .lit (.bool true)
      | "false" => .lit (.bool false)
      | name => .sym name)
where
  /-- A pattern literal; `start` is where its body begins. -/
  patternForm (kind : PatternKind) (start : Nat) (body : List Char) : Except ReadError Form :=
    match Pattern.ofSource kind (String.ofList body) with
    | .ok p => .ok (.lit (.pattern p))
    | .error e => .error (.pattern start e)
  /-- A numeral without fraction and exponent is an integer if that fits sixty-four bits;
  every other one is a float. -/
  numberValue (n : Decimal.Numeral) : Value :=
    match n.toInt? with
    | some i =>
      if Int64.minValue.toInt ≤ i ∧ i ≤ Int64.maxValue.toInt then .int (Int64.ofInt i)
      else .float n.toFloat
    | none => .float n.toFloat

/-- The values of forms that are all literals. -/
def literals? (forms : List Form) : Option (List Value) :=
  forms.mapM fun
    | .lit v => some v
    | _ => none

/-- The form of a set written with the given elements. -/
def Form.ofSet (items : List Form) : Form :=
  match literals? items with
  | some values => .lit (.setOf values)
  | none => .list (.sym "hash-set" :: items)

mutual

/-- The form that a tree stands for. -/
def Source.Tree.toForm : Tree → Except ReadError Form
  | .leaf offset l => l.toForm offset
  | .node offset b children => do
    let items ← treesToForms children
    match b with
    | .list => pure (.list items)
    | .vector => pure (.vector items)
    | .map =>
      match pairUp? items with
      | some entries => pure (.map entries)
      | none => throw (.oddMap offset)
    | .set => pure (Form.ofSet items)

/-- The forms that trees stand for, up to the first error. -/
def treesToForms : List Tree → Except ReadError (List Form)
  | [] => pure []
  | t :: ts => do
    let f ← t.toForm
    let fs ← treesToForms ts
    pure (f :: fs)

end

namespace Form

/-- Every form of a text. -/
def readAll (text : String) : Except ReadError (List Form) :=
  match forest text with
  | .ok trees => treesToForms trees
  | .error fault => .error (.syntaxFault fault)

/-- The one form of a text. -/
def read (text : String) : Except ReadError Form :=
  match forest text with
  | .ok [tree] => tree.toForm
  | .ok [] => .error (.missing text.utf8ByteSize)
  | .ok (_ :: extra :: _) => .error (.trailing extra.offset)
  | .error fault => .error (.syntaxFault fault)

end Form

end Attest

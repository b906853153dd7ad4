import Attest.Decimal.Notation
import Attest.Text.Quoted
import Attest.Value.Basic
/-!
# The text of values and forms

`Value.render` and `Form.render` write values and forms as the reader would read them, as
far as they can be read at all: functions and thrown errors have a text but no literal. A
function that stands alone as a literal form is written by its name.
-/

namespace Attest

/-- Texts with one space between them. -/
def spaced (texts : List String) : String := String.intercalate " " texts

/-- The text of a map from the texts of its entries. -/
def braced (entries : List String) : String :=
  "\x7b" ++ String.intercalate ", " entries ++ "\x7d"

/-- The text of a function as a value. -/
def Fn.render (f : Fn) : String := "#fn[" ++ f.name ++ "]"

mutual

/-- The text of a value. -/
def Value.render : Value → String
  | .nil => "nil"
  | .bool b => if b then "true" else "false"
  | .int n => toString n.toInt
  | .float x => Decimal.render x
  | .str s => Text.quoted s
  | .keyword name => ":" ++ name
  | .list items => "[" ++ spaced (renderItems items) ++ "]"
  | .set items => "#\x7b" ++ spaced (renderItems items) ++ "\x7d"
  | .map entries => braced (renderEntries entries)
  | .fn f => f.render
  | .cls c => c.name
  | .pattern p => p.render
  | .error t => t.render

/-- The texts of several values. -/
def renderItems : List Value → List String
  | [] => []
  | v :: vs => v.render :: renderItems vs

/-- The texts of the entries of a map, key and value apart by a space. -/
def renderEntries : List (Value × Value) → List String
  | [] => []
  | (k, v) :: rest => (k.render ++ " " ++ v.render) :: renderEntries rest

/-- The text of a thrown error: its class, its message in quotes and its data, if any. -/
def Thrown.render : Thrown → String
  | ⟨c, message, data⟩ =>
    "#error \x7b:class " ++ c.name ++ ", :message " ++ Text.quoted message ++
      renderData data ++ "\x7d"

/-- The data of a thrown error, after a comma. -/
def renderData : Option Value → String
  | none => ""
  | some v => ", :data " ++ v.render

end

mutual

/-- The text of a form. -/
def Form.render : Form → String
  | .lit (.fn f) => f.name
  | .lit v => v.render
  | .sym name => name
  | .list items => "(" ++ spaced (renderForms items) ++ ")"
  | .vector items => "[" ++ spaced (renderForms items) ++ "]"
  | .map entries => braced (renderFormEntries entries)

/-- The texts of several forms. -/
def renderForms : List Form → List String
  | [] => []
  | f :: fs => f.render :: renderForms fs

/-- The texts of the entries of a map form. -/
def renderFormEntries : List (Form × Form) → List String
  | [] => []
  | (k, v) :: rest => (k.render ++ " " ++ v.render) :: renderFormEntries rest

end

/-- The text that patterns are matched against: a text itself, the name of a keyword, and
the text of any other value. -/
def Value.stringForm : Value → String
  | .str s => s
  | .keyword name => name
  | v => v.render

end Attest

import Attest.Settings.Basic
import Attest.Yaml.Node
/-!
# Settings as a document

Settings are written as a YAML mapping. What is left out has its default, unknown keys do not
count, and a known key may stand only once.
-/

namespace Attest

/-- The fields of a mapping: its keys, which have to be scalars, and its values. -/
def Yaml.Node.fields? (node : Yaml.Node) : Option (List (String × Yaml.Node)) := do
  (← node.entries?).mapM fun (key, value) => key.text?.map (·, value)

/-- The value of a field as `read` reads it, or its default where it is left out. -/
def fieldOr {α : Type} (fields : List (String × Yaml.Node)) (name : String) (default : α)
    (read : Yaml.Node → Option α) : Option α :=
  match fields.filter (·.1 == name) with
  | [] => some default
  | [(_, value)] => read value
  | _ => none

/-- The settings of the output in a document. -/
def OutputSettings.ofNode? (node : Yaml.Node) : Option OutputSettings := do
  let fields ← node.fields?
  let d : OutputSettings := {}
  let differences ← fieldOr fields "diff" d.differences fun n => n.name?.bind Showing.ofName?
  let limit ← fieldOr fields "truncate_at" d.limit fun n => n.nat?.filter (· < Nat.pow 2 64)
  let color ← fieldOr fields "color" d.color fun n => n.name?.bind ColorChoice.ofName?
  pure { differences, limit, color }

namespace Settings

/-- The settings in a document. -/
def ofNode? (node : Yaml.Node) : Option Settings := do
  let fields ← node.fields?
  let d : Settings := {}
  let differences ← fieldOr fields "diff" d.differences Yaml.Node.bool?
  let output ← fieldOr fields "output" d.output OutputSettings.ofNode?
  pure { differences, output }

/-- The settings that a text writes, if it does. -/
def ofText? (text : String) : Option Settings := (Yaml.Node.ofText? text).bind ofNode?

end Settings

end Attest

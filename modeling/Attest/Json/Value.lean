import Attest.Eval.Number
import Attest.Json.Basic
import Attest.Value.Collection
/-!
# JSON documents as values

Objects become maps whose keys are keywords; the last of two members with the same key
counts. A number is an integer if it was written as one and fits, and a float otherwise.
-/

namespace Attest

mutual

/-- The value that a JSON document stands for. -/
def Json.toValue : Json → Value
  | .null => .nil
  | .bool b => .bool b
  | .int n =>
    match int64? n with
    | some i => .int i
    | none => .float (Float.ofInt n)
  | .float x => .float x
  | .str s => .str s
  | .array items => .list (jsonItems items)
  | .object members => .mapOf (jsonMembers members)

/-- The values of several documents. -/
def jsonItems : List Json → List Value
  | [] => []
  | j :: js => j.toValue :: jsonItems js

/-- Members as entries with keywords for keys. -/
def jsonMembers : List (String × Json) → List (Value × Value)
  | [] => []
  | (key, j) :: rest => (.keyword key, j.toValue) :: jsonMembers rest

end

/-- The value that a JSON text stands for. -/
def Value.ofJson? [JsonReader] (text : String) : Option Value := (JsonReader.read? text).map Json.toValue

end Attest

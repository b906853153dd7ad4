/-!
# JSON documents

A document as it is read from a text. How texts are read is up to a `JsonReader`.
-/

namespace Attest

/-- A JSON document. Members of objects stand in the order in which they were written. -/
inductive Json where
  | null
  | bool (b : Bool)
  | int (n : Int)
  | float (x : Float)
  | str (s : String)
  | array (items : List Json)
  | object (members : List (String × Json))

/-- How texts are read as documents. -/
class JsonReader where
  read? : String → Option Json

end Attest

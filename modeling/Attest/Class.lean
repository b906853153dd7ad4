import Attest.ErrorClass
/-!
# Kinds and classes of values

A kind is what a value is at run time. A class is something a value can be an instance of:
a kind, the numbers, anything, or a class of errors.
-/

namespace Attest

/-- The kind of a value, in the order of the value order. -/
inductive Kind where
  | nil | bool | int | float | str | keyword | list | set | map | fn | cls | pattern | error
  deriving DecidableEq, Repr

namespace Kind

/-- The place of a kind in the order of values. -/
def rank : Kind → Nat
  | nil => 0 | bool => 1 | int => 2 | float => 3 | str => 4 | keyword => 5 | list => 6
  | set => 7 | map => 8 | fn => 9 | cls => 10 | pattern => 11 | error => 12

/-- The name of a kind. -/
def name : Kind → String
  | nil => "Nil" | bool => "Bool" | int => "Int" | float => "Float" | str => "Str"
  | keyword => "Keyword" | list => "List" | set => "Set" | map => "Map" | fn => "Fn"
  | cls => "Class" | pattern => "Pattern" | error => "Error"

/-- The kinds that are also the names of classes. -/
def classes : List Kind :=
  [nil, bool, int, float, str, keyword, list, set, map, fn, cls, pattern]

theorem rank_injective {a b : Kind} (h : a.rank = b.rank) : a = b := by
  cases a <;> cases b <;> first | rfl | cases h

end Kind

/-- Something that a value can be an instance of. -/
inductive Class where
  | kind (k : Kind)
  | number
  | any
  | error (c : ErrorClass)

namespace Class

/-- The name of a class. -/
def name : Class → String
  | kind k => k.name
  | number => "Number"
  | any => "Any"
  | error c => c.name

/-- Whether instances of the class are thrown. -/
def isError : Class → Bool
  | error _ => true
  | _ => false

/-- The place of a sort of class among the others. -/
def rank : Class → Nat
  | kind _ => 0
  | number => 1
  | any => 2
  | error _ => 3

/-- The order of classes: kinds first, then numbers, anything, and classes of errors by
their names. -/
def compare : Class → Class → Ordering
  | kind a, kind b => Ord.compare a.rank b.rank
  | error a, error b => Ord.compare a.name b.name
  | a, b => Ord.compare a.rank b.rank

end Class

end Attest

/-!
# Classes of errors

Error classes form a tree of names below `Error`. Two classes are the same when they have
the same name (`same`), wherever in the tree they stand; `isA` asks whether a name occurs
among a class and the classes above it. The lemmas give `isA` its reading: a class is what
it is called, and everything that its parent is.
-/

namespace Attest

/-- A class of errors: the root, or a named class below another. -/
inductive ErrorClass where
  | root
  | sub (name : String) (parent : ErrorClass)
  deriving Repr

namespace ErrorClass

/-- The name of a class. -/
def name : ErrorClass → String
  | root => "Error"
  | sub name _ => name

/-- The class directly above. -/
def parent? : ErrorClass → Option ErrorClass
  | root => none
  | sub _ parent => some parent

/-- The names of a class and of all classes above it, from the class up to the root. -/
def lineage : ErrorClass → List String
  | root => ["Error"]
  | sub name parent => name :: parent.lineage

/-- Classes are the same when their names are. -/
def same (a b : ErrorClass) : Bool := a.name == b.name

/-- Whether a class is another one or stands below it. -/
def isA : ErrorClass → ErrorClass → Bool
  | root, c => c.name == "Error"
  | sub name parent, c => c.name == name || parent.isA c

/-- A class below the root for each of the given names, each below the one before. -/
def descend (names : List String) : ErrorClass := names.foldl (fun c n => sub n c) root

/-- Division by zero and numbers out of range. -/
def arithmetic : ErrorClass := sub "ArithmeticError" root

/-- Arguments that a function does not accept. -/
def argument : ErrorClass := sub "ArgumentError" root

/-- Names and positions that are not there. -/
def lookup : ErrorClass := sub "LookupError" root

/-- Errors that carry data of the user's. -/
def info : ErrorClass := sub "InfoError" root

theorem isA_iff_mem_lineage (a b : ErrorClass) : a.isA b = true ↔ b.name ∈ a.lineage := by
  induction a with
  | root => simp [isA, lineage]
  | sub n p ih => simp [isA, lineage, ih]

end ErrorClass

end Attest

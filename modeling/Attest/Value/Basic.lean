import Attest.Builtin
import Attest.Class
import Attest.Pattern
/-!
# Values and forms

A value is what evaluation yields; a form is what a source text says. The two types know
each other, because a function value keeps the forms of its body and the values it was
made among, and a literal form holds a value.

Sets and maps are lists in increasing order of their elements or keys, without two equal
ones; the operations that build them keep it so. A function that was made while evaluating
carries the place of the computation where it was made (`Site`): two functions are the
same when they were made at the same place. A host's function has a place of its own, and
answers as the host likes.
-/

namespace Attest

/-- A place in a computation: the turns that lead to it, the last one first. Different
steps of one computation are at different places. -/
abbrev Site := List Nat

/-- The `i`-th place below a place. -/
def Site.at (site : Site) (i : Nat) : Site := i :: site

mutual

/-- A dynamic value. -/
inductive Value where
  | nil
  | bool (b : Bool)
  | int (n : Int64)
  | float (x : Float)
  | str (s : String)
  | keyword (name : String)
  | list (items : List Value)
  | set (items : List Value)
  | map (entries : List (Value × Value))
  | fn (f : Fn)
  | cls (c : Class)
  | pattern (p : Pattern)
  | error (t : Thrown)

/-- An error that was, or can be, thrown. -/
structure Thrown where
  errorClass : ErrorClass
  message : String
  data : Option Value

/-- A function that a host puts into an environment. -/
inductive Probe where
  /-- Notes its arguments and gives the last one. -/
  | trace
  /-- Counts its calls: `answers n shown` is what call `n` gives or throws for arguments of
  which these are the displays. The first call is number one. -/
  | host (site : Site) (name : String) (answers : Nat → List String → Except Thrown Value)

/-- A function. -/
inductive Fn where
  | builtin (b : Builtin)
  | probe (p : Probe)
  /-- Always gives the same value. -/
  | constantly (site : Site) (value : Value)
  /-- Binds its arguments to `params` in the scope it was made in, then runs its body. -/
  | closure (site : Site) (params : Binding) (body : List Form)
      (scope : List (String × Value))

/-- A pattern of names that takes a value apart. -/
inductive Binding where
  | name (n : String)
  /-- By position: the first elements, the rest, and the whole. -/
  | seq (items : List Binding) (rest : Option Binding) (whole : Option String)
  /-- By key: a pattern for the entry under each key, and the whole. -/
  | map (entries : List (Binding × Value)) (whole : Option String)

/-- An expression as read from a source text. -/
inductive Form where
  | lit (v : Value)
  | sym (name : String)
  | list (items : List Form)
  | vector (items : List Form)
  | map (entries : List (Form × Form))

end

instance : Inhabited Value := ⟨.nil⟩
instance : Inhabited Form := ⟨.lit .nil⟩

/-- The result of a computation: a value or the error it threw. -/
abbrev Outcome := Except Thrown Value

namespace Thrown

/-- An error of arithmetic. -/
def arithmetic (message : String) : Thrown := ⟨.arithmetic, message, none⟩

/-- An error about arguments. -/
def argument (message : String) : Thrown := ⟨.argument, message, none⟩

/-- An error about something that is not there. -/
def lookup (message : String) : Thrown := ⟨.lookup, message, none⟩

/-- The error about a wrong number of arguments. -/
def arity (found expected : Nat) : Thrown :=
  argument ("wrong number of arguments (" ++ toString found ++ "), expected " ++
    toString expected)

/-- Whether the error is of a class or of one below it. -/
def isInstance (t : Thrown) (c : ErrorClass) : Bool := t.errorClass.isA c

end Thrown

/-- The name of a host's function. -/
def Probe.name : Probe → String
  | .trace => "trace"
  | .host _ name _ => name

/-- The name of a function. -/
def Fn.name : Fn → String
  | .builtin b => b.name
  | .probe p => p.name
  | .constantly .. => "constantly"
  | .closure .. => "fn"

/-- The place of a function, if it is not a standard one. -/
def Fn.site? : Fn → Option Site
  | .builtin _ | .probe .trace => none
  | .probe (.host site ..) | .constantly site _ | .closure site .. => some site

namespace Value

/-- The kind of a value. -/
def kind : Value → Kind
  | nil => .nil
  | bool _ => .bool
  | int _ => .int
  | float _ => .float
  | str _ => .str
  | keyword _ => .keyword
  | list _ => .list
  | set _ => .set
  | map _ => .map
  | fn _ => .fn
  | cls _ => .cls
  | pattern _ => .pattern
  | error _ => .error

/-- The name of a value's kind, or of its class for an error. -/
def typeName : Value → String
  | error t => t.errorClass.name
  | v => v.kind.name

/-- Everything but `nil` and `false` counts as true. -/
def isTruthy : Value → Bool
  | nil | bool false => false
  | _ => true

/-- Whether a value is `nil`. -/
def isNil : Value → Bool
  | nil => true
  | _ => false

/-- The integer that a value is. -/
def int? : Value → Option Int64
  | int n => some n
  | _ => none

/-- The most specific class of a value. -/
def typeOf : Value → Class
  | error t => .error t.errorClass
  | v => .kind v.kind

/-- The elements of a value in order: entries of a map as pairs, characters of a text as
texts, and none for `nil`. Values that cannot be gone through have no elements. -/
def elements? : Value → Option (List Value)
  | nil => some []
  | list items => some items
  | set items => some items
  | map entries => some (entries.map fun (k, v) => list [k, v])
  | str s => some (s.toList.map fun c => str (String.singleton c))
  | _ => none

end Value

/-- Whether a value is an instance of a class. -/
def Class.isInstance (c : Class) (v : Value) : Bool :=
  match c, v with
  | .any, _ => true
  | .number, .int _ => true
  | .number, .float _ => true
  | .error c, .error t => t.isInstance c
  | .kind k, v => v.kind == k
  | _, _ => false

namespace Form

/-- The symbol that leads a list. -/
def head? : Form → Option String
  | list (sym name :: _) => some name
  | _ => none

/-- What follows the head of a list. -/
def args : Form → List Form
  | list (_ :: rest) => rest
  | _ => []

end Form

end Attest

import Attest.Scope
/-!
# The standard scope

The scope in which every standard function and class is bound to its name.
-/

namespace Attest

/-- The classes of errors that are bound. -/
def ErrorClass.standard : List ErrorClass := [.root, .arithmetic, .argument, .lookup, .info]

/-- The classes that are bound. -/
def Class.standard : List Class :=
  Kind.classes.map .kind ++ [.number, .any] ++ ErrorClass.standard.map .error

/-- The scope of the standard functions and classes. -/
def Scope.standard : Scope :=
  Class.standard.map (fun c => (c.name, .cls c)) ++
    Builtin.all.map fun b => (b.name, .fn (.builtin b))

/-- Answers each call with its number. -/
def Probe.tick : Probe := .host [] "tick" fun n _ => .ok (.int (Int64.ofInt n))

/-- A scope in which two functions are bound as well that watch evaluation. -/
def Scope.withProbes (scope : Scope) : Scope :=
  [Probe.trace, .tick].foldl (fun s p => s.bind p.name (.fn (.probe p))) scope

end Attest

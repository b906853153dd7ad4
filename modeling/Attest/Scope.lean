import Attest.Value.Basic
/-!
# Scopes

A scope is what names are bound to: a list of bindings in which the first one for a name
counts, so that binding a name again hides the older binding and leaves every other name
as it was (`lookup_bind_self`, `lookup_bind_of_ne`).
-/

namespace Attest

/-- What names are bound to, the latest binding first. -/
abbrev Scope := List (String × Value)

namespace Scope

/-- The scope without names. -/
def empty : Scope := []

/-- A scope with a name bound to a value. -/
def bind (scope : Scope) (name : String) (value : Value) : Scope := (name, value) :: scope

/-- What a name is bound to. -/
def lookup (scope : Scope) (name : String) : Option Value :=
  (scope.find? (·.1 == name)).map (·.2)

/-- The names that are bound, each once. -/
def names (scope : Scope) : List String := (scope.map (·.1)).eraseDups

/-- How many names are bound. -/
def size (scope : Scope) : Nat := scope.names.length

@[simp]
theorem lookup_empty (name : String) : empty.lookup name = none := rfl

@[simp]
theorem lookup_bind_self (scope : Scope) (name : String) (value : Value) :
    (scope.bind name value).lookup name = some value := by
  simp [bind, lookup]

theorem lookup_bind_of_ne (scope : Scope) {name other : String} (value : Value)
    (h : other ≠ name) : (scope.bind name value).lookup other = scope.lookup other := by
  have h' : (name == other) = false := by simp [Ne.symm h]
  simp [bind, lookup, h']

end Scope

end Attest

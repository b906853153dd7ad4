/-!
# How reports look

When differences are shown, from which length on texts are cut, and whether colors are used.
-/

namespace Attest

/-- When something is shown. -/
inductive Showing where
  | always
  | onFailure
  | never
  deriving DecidableEq, Repr

namespace Showing

/-- Whether something is shown for a check that passed, or did not. -/
def shows : Showing → Bool → Bool
  | always, _ => true
  | onFailure, passed => !passed
  | never, _ => false

/-- How a setting names it. -/
def name : Showing → String
  | always => "always"
  | onFailure => "on_failure"
  | never => "never"

/-- What a name in a setting means. -/
def ofName? (name : String) : Option Showing := [always, onFailure, never].find? (·.name == name)

end Showing

/-- How reports look. -/
structure Style where
  differences : Showing := .onFailure
  /-- How many characters of a text are shown. -/
  limit : Nat := 120
  colors : Bool := false
  deriving DecidableEq, Repr

namespace Style

/-- Whether the difference of a check is shown. -/
def showsDifference (style : Style) (passed : Bool) : Bool := style.differences.shows passed

/-- A text within the limit. Where something is cut off, three dots stand for it, and they
count. -/
def truncate (style : Style) (text : String) : String :=
  if text.length ≤ style.limit then text
  else String.ofList (text.toList.take (style.limit - 3)) ++ "..."

end Style

end Attest

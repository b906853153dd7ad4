/-!
# Combinators

Six symbols combine checks when they lead a form: four lead the expected form, two the
actual one. Any other symbol in that place is ordinary code.
-/

namespace Attest

/-- A symbol that combines checks. -/
inductive Combinator where
  | more
  | moreThreadFirst
  | moreThreadLast
  | moreOf
  | fromEach
  | inside
  deriving DecidableEq, Repr

namespace Combinator

/-- All combinators. -/
def all : List Combinator := [more, moreThreadFirst, moreThreadLast, moreOf, fromEach, inside]

/-- How a combinator is written. -/
def symbol : Combinator → String
  | more => "more"
  | moreThreadFirst => "more->"
  | moreThreadLast => "more->>"
  | moreOf => "more-of"
  | fromEach => "from-each"
  | inside => "in"

/-- The combinator that a symbol writes. -/
def ofSymbol? (symbol : String) : Option Combinator := all.find? (·.symbol == symbol)

/-- Whether a combinator leads the actual form. -/
def isActualSide : Combinator → Bool
  | fromEach | inside => true
  | _ => false

theorem mem_all (c : Combinator) : c ∈ all := by cases c <;> decide

@[simp]
theorem ofSymbol?_symbol (c : Combinator) : ofSymbol? c.symbol = some c := by
  cases c <;> decide

end Combinator

end Attest

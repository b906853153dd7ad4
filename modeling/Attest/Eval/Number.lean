import Attest.Value.Text
/-!
# Arithmetic

Sums, differences and products of integers are exact and stay within sixty-four bits or
fail; as soon as a float takes part, all operands are floats. A quotient of integers is an
integer when it is exact, and a float otherwise. Comparisons are made on floats.
-/

namespace Attest

/-- The integer with a value, if it fits sixty-four bits. -/
def int64? (n : Int) : Option Int64 :=
  if Int64.minValue.toInt ≤ n ∧ n ≤ Int64.maxValue.toInt then some (Int64.ofInt n) else none

/-- The float nearest to an integer. -/
def floatOfInt (n : Int64) : Float := Float.ofInt n.toInt

/-- The error of a result that does not fit. -/
def overflow : Thrown := .arithmetic "integer overflow"

/-- The error of a zero divisor. -/
def zeroDivision : Thrown := .arithmetic "Divide by zero"

namespace Value

/-- The float that a number is or is nearest to. -/
def float? : Value → Option Float
  | int n => some (floatOfInt n)
  | float x => some x
  | _ => none

/-- The float of a number, or the error about a value that is none. -/
def toFloat (v : Value) : Except Thrown Float :=
  match v.float? with
  | some x => .ok x
  | none => .error (.argument ("expected a number, got " ++ v.typeName ++ ": " ++ v.render))

end Value

/-- An operation on numbers, once on integers and once on floats. -/
structure Operation where
  onInts : Int → Int → Int
  onFloats : Float → Float → Float

namespace Operation

/-- Addition. -/
def plus : Operation := ⟨(· + ·), (· + ·)⟩

/-- Subtraction. -/
def minus : Operation := ⟨(· - ·), (· - ·)⟩

/-- Multiplication. -/
def times : Operation := ⟨(· * ·), (· * ·)⟩

/-- The integers that values are, if all of them are. -/
def ints? (values : List Value) : Option (List Int64) := values.mapM Value.int?

/-- Combines integers from the left; every intermediate result has to fit. -/
def foldInts (op : Operation) (start : Int64) (ns : List Int64) : Except Thrown Int64 :=
  ns.foldlM (fun acc n =>
    match int64? (op.onInts acc.toInt n.toInt) with
    | some r => .ok r
    | none => .error overflow) start

/-- Combines floats from the left. -/
def foldFloats (op : Operation) (start : Float) (values : List Value) : Except Thrown Float :=
  values.foldlM (fun acc v => do
    let x ← v.toFloat
    pure (op.onFloats acc x)) start

/-- Combines numbers from the left: as integers if all are, else as floats. -/
def fold (op : Operation) (start : Value) (values : List Value) : Outcome :=
  match start, ints? values with
  | .int n, some ns => (op.foldInts n ns).map .int
  | _, _ => do
    let x ← start.toFloat
    let r ← op.foldFloats x values
    pure (.float r)

end Operation

/-- The sum of numbers. -/
def sum (values : List Value) : Outcome := Operation.plus.fold (.int 0) values

/-- The product of numbers. -/
def product (values : List Value) : Outcome := Operation.times.fold (.int 1) values

/-- The first number less the others; a single number is taken from zero. -/
def difference : List Value → Outcome
  | [] => .error (.arity 0 1)
  | [x] => Operation.minus.fold (.int 0) [x]
  | x :: rest => Operation.minus.fold x rest

/-- The quotient of two numbers as floats. -/
def floatQuotient (a b : Value) : Outcome := do
  let d ← b.toFloat
  if d == 0.0 then .error zeroDivision
  else
    let n ← a.toFloat
    pure (.float (n / d))

/-- The quotient of two numbers. It is an integer when both are, the division is exact and
the result fits; the one exact quotient that does not fit is a float. -/
def quotient (a b : Value) : Outcome :=
  match a, b with
  | .int m, .int n =>
    if n.toInt = 0 then .error zeroDivision
    else if Int.tmod m.toInt n.toInt = 0 then
      match int64? (Int.tdiv m.toInt n.toInt) with
      | some q => .ok (.int q)
      | none => floatQuotient a b
    else floatQuotient a b
  | _, _ => floatQuotient a b

/-- The relation that a comparison asks for. -/
def Comparison.holds (c : Comparison) (x y : Float) : Bool :=
  match c with
  | .lt => x < y
  | .gt => x > y
  | .le => x ≤ y
  | .ge => x ≥ y

/-- Whether a relation holds between each element and the next. -/
def chain {α : Type} (r : α → α → Bool) : List α → Bool
  | a :: b :: rest => r a b && chain r (b :: rest)
  | _ => true

/-- Whether the numbers are in order. -/
def Comparison.apply (c : Comparison) (values : List Value) : Outcome := do
  let xs ← values.mapM Value.toFloat
  pure (.bool (chain c.holds xs))

/-- The answer of a predicate. Questions about numbers are answered no for other values. -/
def Predicate.holds (p : Predicate) (v : Value) : Bool :=
  match p with
  | .even => v.int?.any fun n => n.toInt % 2 == 0
  | .odd => v.int?.any fun n => n.toInt % 2 != 0
  | .pos => v.float?.any (· > 0.0)
  | .neg => v.float?.any (· < 0.0)
  | .zero => v.float?.any (· == 0.0)
  | .isNil => v.isNil
  | .isSome => !v.isNil
  | .isString => v.kind == .str
  | .isInt => v.kind == .int
  | .isNumber => v.kind == .int || v.kind == .float
  | .isKeyword => v.kind == .keyword
  | .isMap => v.kind == .map
  | .isSet => v.kind == .set
  | .isColl => v.kind == .list || v.kind == .set || v.kind == .map
  | .isFn => v.kind == .fn
  | .isEmpty => v.elements?.any List.isEmpty
  | .not => !v.isTruthy

end Attest

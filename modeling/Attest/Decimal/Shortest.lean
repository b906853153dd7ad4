/-!
# The shortest decimal that reads back

A finite float stands for an interval of real numbers, those that round to it. Of the
decimals in that interval `shortest` takes one with the fewest digits, and of those the
nearest to the float; half way between two it takes the larger. Everything is exact
arithmetic on natural numbers.
-/

namespace Attest.Decimal

/-- A decimal `digits · 10 ^ exponent`. -/
structure Scaled where
  digits : Nat
  exponent : Int
  deriving DecidableEq, Repr

/-- The number of decimal digits of `n`; one for zero. -/
def digitCount (n : Nat) : Nat := (Nat.toDigits 10 n).length

/-- The sign bit of a float. -/
def isNegative (x : Float) : Bool := x.toBits.toNat ≥ Nat.pow 2 63

/-- The eleven exponent bits of a float. -/
def exponentField (x : Float) : Nat := x.toBits.toNat / Nat.pow 2 52 % Nat.pow 2 11

/-- The fifty-two fraction bits of a float. -/
def fractionField (x : Float) : Nat := x.toBits.toNat % Nat.pow 2 52

/-- The real numbers that round to a positive float: from `low / unit` to `high / unit`,
the float itself being `value / unit`. The ends belong to it when `closed`. -/
structure Interval where
  low : Nat
  value : Nat
  high : Nat
  unit : Nat
  closed : Bool

/-- The interval of the size of a finite float. At a power of two the gap below is half
the gap above; the ends round to the float when its significand is even. -/
def Interval.ofFloat (x : Float) : Interval :=
  let e := exponentField x
  let f := fractionField x
  let significand := if e = 0 then f else f + Nat.pow 2 52
  let below := if f = 0 ∧ 1 < e then 1 else 2
  -- quarters of the last place: the exponent of two is `e - 1077`, or that of `e = 1`
  let shift := if e = 0 then 1 else e
  let up := Nat.pow 2 (shift - 1077)
  { low := (4 * significand - below) * up
    value := 4 * significand * up
    high := (4 * significand + 2) * up
    unit := Nat.pow 2 (1077 - shift)
    closed := significand % 2 = 0 }

namespace Interval

/-- The power of ten just above the value: `p` with `10 ^ (p - 1) ≤ value / unit < 10 ^ p`. -/
def magnitude (i : Interval) : Int :=
  if i.unit ≤ i.value then digitCount (i.value / i.unit)
  else
    let gap := (i.unit - 1) / i.value
    1 - (digitCount gap : Int)

/-- Whether `c · 10 ^ k`, with `unit` already scaled to that grid, is in the interval. -/
def holds (i : Interval) (c : Nat) : Bool :=
  if i.closed then i.low ≤ c * i.unit && c * i.unit ≤ i.high
  else i.low < c * i.unit && c * i.unit < i.high

/-- The interval measured in units of `10 ^ k`. -/
def onGrid (i : Interval) (k : Int) : Interval :=
  match k with
  | .ofNat up => { i with unit := i.unit * Nat.pow 10 up }
  | .negSucc n =>
    let s := Nat.pow 10 (n + 1)
    { i with low := i.low * s, value := i.value * s, high := i.high * s }

/-- The multiple of `10 ^ k` in the interval that is nearest to the value, if there is one;
it is one of the two neighbours of the value. -/
def nearest? (i : Interval) (k : Int) : Option Nat :=
  let g := i.onGrid k
  let c := g.value / g.unit
  match g.holds c, g.holds (c + 1) with
  | true, true => some (if g.value - c * g.unit < (c + 1) * g.unit - g.value then c else c + 1)
  | true, false => some c
  | false, true => some (c + 1)
  | false, false => none

end Interval

/-- The shortest decimal for the size of a finite float other than zero. Seventeen digits
always suffice. -/
def shortest (x : Float) : Scaled :=
  let i := Interval.ofFloat x
  let p := i.magnitude
  let found := (List.range 17).findSome? fun (n : Nat) =>
    let k := p - (n + 1)
    (i.nearest? k).map fun c => (⟨c, k⟩ : Scaled)
  found.getD ⟨0, 0⟩

end Attest.Decimal

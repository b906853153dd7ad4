import Attest.Decimal.Shortest
/-!
# The text of a float

Zero and sizes from `10⁻⁴` up to, but not including, `10¹⁶` are written positionally with
at least one digit after the point; other finite floats have one digit before the point
and an exponent without sign or padding where it is positive.
-/

namespace Attest.Decimal

/-- The digits of a decimal without trailing zeros. -/
def Scaled.significant (d : Scaled) : List Char :=
  ((Nat.toDigits 10 d.digits).reverse.dropWhile (· == '0')).reverse

/-- How many digits stand before the point, were the decimal written positionally; not
positive when zeros follow the point. -/
def Scaled.point (d : Scaled) : Int := digitCount d.digits + d.exponent

/-- Digits written positionally, the point after the first `point` of them. -/
def positional (digits : List Char) (point : Int) : List Char :=
  match point with
  | .ofNat n =>
    if n = 0 then '0' :: '.' :: digits
    else
      let fraction := digits.drop n
      digits.take n ++ List.replicate (n - digits.length) '0' ++
        '.' :: (if fraction.isEmpty then ['0'] else fraction)
  | .negSucc n => '0' :: '.' :: List.replicate (n + 1) '0' ++ digits

/-- Digits written with an exponent, one digit before the point. -/
def scientific (digits : List Char) (point : Int) : List Char :=
  let fraction := digits.drop 1
  digits.take 1 ++ (if fraction.isEmpty then [] else '.' :: fraction) ++
    'e' :: (toString (point - 1)).toList

/-- The text of a float's size when it is finite and not zero. -/
def Scaled.text (d : Scaled) : List Char :=
  if -3 ≤ d.point ∧ d.point ≤ 16 then positional d.significant d.point
  else scientific d.significant d.point

/-- The text of a float. -/
def render (x : Float) : String :=
  if exponentField x = 2047 then
    if fractionField x ≠ 0 then "NaN" else if isNegative x then "-inf" else "inf"
  else
    let size :=
      if exponentField x = 0 ∧ fractionField x = 0 then ['0', '.', '0'] else (shortest x).text
    String.ofList (if isNegative x then '-' :: size else size)

end Attest.Decimal

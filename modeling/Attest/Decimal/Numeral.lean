import Attest.Decimal.Shortest
/-!
# Numerals

A numeral is a sign, digits, perhaps a fraction and perhaps an exponent. `Numeral.scan?`
takes the longest numeral at the start of a text, `Numeral.toInt?` gives the integer it
writes when it has neither fraction nor exponent, and `Numeral.toFloat` the float nearest
to it.
-/

namespace Attest.Decimal

/-- The number written by a list of decimal digits. -/
def digitsValue (digits : List Char) : Nat :=
  digits.foldl (fun n c => 10 * n + (c.toNat - 48)) 0

/-- The float nearest to `digits · 10 ^ exponent`; sizes beyond the range go to infinity or
to zero without computing the power. -/
def toFloat (digits : Nat) (exponent : Int) : Float :=
  if digits = 0 then 0.0
  else
    let point := digitCount digits + exponent
    if 310 < point then Float.ofBits 0x7ff0000000000000
    else if point < -330 then 0.0
    else Float.ofScientific digits (exponent < 0) exponent.natAbs

/-- A numeral as written. -/
structure Numeral where
  negative : Bool
  whole : List Char
  fraction : List Char
  exponent : Option Int
  deriving DecidableEq

namespace Numeral

/-- The digits at the start of a text and what follows; `none` when there are none. -/
def scanDigits? (cs : List Char) : Option (List Char × List Char) :=
  match cs.takeWhile Char.isDigit with
  | [] => none
  | ds => some (ds, cs.dropWhile Char.isDigit)

/-- A sign at the start of a text, and what follows. -/
def scanSign (cs : List Char) : Bool × List Char :=
  match cs with
  | '-' :: rest => (true, rest)
  | '+' :: rest => (false, rest)
  | _ => (false, cs)

/-- A fraction at the start of a text, empty if a point with a digit is missing. -/
def scanFraction (cs : List Char) : List Char × List Char :=
  match cs with
  | '.' :: rest => (scanDigits? rest).getD ([], cs)
  | _ => ([], cs)

/-- An exponent at the start of a text, if it is complete. -/
def scanExponent (cs : List Char) : Option Int × List Char :=
  match cs with
  | e :: rest =>
    if e == 'e' || e == 'E' then
      let (negative, rest) := scanSign rest
      match scanDigits? rest with
      | some (ds, rest) =>
        (some (if negative then -(digitsValue ds : Int) else digitsValue ds), rest)
      | none => (none, cs)
    else (none, cs)
  | [] => (none, cs)

/-- The longest numeral at the start of a text, and what follows. -/
def scan? (cs : List Char) : Option (Numeral × List Char) := do
  let (negative, rest) := scanSign cs
  let (whole, rest) ← scanDigits? rest
  let (fraction, rest) := scanFraction rest
  let (exponent, rest) := scanExponent rest
  pure (⟨negative, whole, fraction, exponent⟩, rest)

/-- The integer that a numeral without fraction and exponent writes. -/
def toInt? (n : Numeral) : Option Int :=
  match n.fraction, n.exponent with
  | [], none =>
    some (if n.negative then -(digitsValue n.whole : Int) else digitsValue n.whole)
  | _, _ => none

/-- The float nearest to a numeral. -/
def toFloat (n : Numeral) : Float :=
  let size := Decimal.toFloat (digitsValue (n.whole ++ n.fraction))
    (n.exponent.getD 0 - n.fraction.length)
  if n.negative then -size else size

/-! ## A numeral takes characters -/

theorem length_lt_of_scanDigits? {cs ds after : List Char}
    (h : scanDigits? cs = some (ds, after)) : after.length < cs.length := by
  unfold scanDigits? at h
  split at h
  · cases h
  · next hne =>
    cases h
    have hlen := congrArg List.length (List.takeWhile_append_dropWhile (p := Char.isDigit) (l := cs))
    have hpos : 0 < (cs.takeWhile Char.isDigit).length := List.length_pos_iff.2 hne
    simp only [List.length_append] at hlen
    omega

theorem length_scanSign_le (cs : List Char) : (scanSign cs).2.length ≤ cs.length := by
  unfold scanSign
  split <;> simp

theorem length_scanFraction_le (cs : List Char) : (scanFraction cs).2.length ≤ cs.length := by
  unfold scanFraction
  split
  · next rest =>
    cases hd : scanDigits? rest with
    | none => simp
    | some p =>
      have := length_lt_of_scanDigits? hd
      simp only [Option.getD_some, List.length_cons]
      omega
  · simp

theorem length_scanExponent_le (cs : List Char) : (scanExponent cs).2.length ≤ cs.length := by
  unfold scanExponent
  split
  · next e rest =>
    split
    · have hs := length_scanSign_le rest
      cases hd : scanDigits? (scanSign rest).2 with
      | none => simp [hd]
      | some p =>
        have := length_lt_of_scanDigits? hd
        simp only [hd, List.length_cons]
        omega
    · simp
  · simp

theorem length_lt_of_scan? {cs after : List Char} {n : Numeral}
    (h : scan? cs = some (n, after)) : after.length < cs.length := by
  unfold scan? at h
  cases hd : scanDigits? (scanSign cs).2 with
  | none => simp [hd] at h
  | some p =>
    have h1 := length_scanSign_le cs
    have h2 := length_lt_of_scanDigits? hd
    have h3 := length_scanFraction_le p.2
    have h4 := length_scanExponent_le (scanFraction p.2).2
    simp [hd] at h
    obtain ⟨-, rfl⟩ := h
    omega

end Numeral

end Attest.Decimal

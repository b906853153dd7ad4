import Attest.Json.Basic
import Attest.Text.Table
/-!
# Reading JSON documents

`Json.ofText?` reads a JSON text. A number without fraction and exponent is kept as an
integer as long as its digits fit sixty-four bits; every other number becomes a float, by
one multiplication or division with a power of ten. A number beyond the floats, a lone
surrogate and nesting beyond `depthLimit` make the text unreadable.
-/

namespace Attest

namespace Json

/-- How deeply arrays and objects may be nested. -/
def depthLimit : Nat := 127

/-- What follows white space. -/
def skipSpace (cs : List Char) : List Char :=
  cs.dropWhile fun c => c == ' ' || c == '\t' || c == '\n' || c == '\r'

/-! ## Numbers -/

/-- The value of a decimal digit. -/
def digit? (c : Char) : Option Nat := if c.isDigit then some (c.toNat - 48) else none

/-- The float `significand · 10 ^ exponent`, rounded once for the significand and once for
the power; `none` when it is out of range. Exponents below the least power are divided off
in steps. -/
def scale? : Nat → Float → Int → Option Float
  | 0, _, _ => none
  | fuel + 1, x, exponent =>
    if exponent.natAbs ≤ 308 then
      let power := Float.ofScientific 1 false exponent.natAbs
      if 0 ≤ exponent then
        let y := x * power
        if y.isInf then none else some y
      else some (x / power)
    else if x == 0.0 then some x
    else if 0 ≤ exponent then none
    else scale? fuel (x / Float.ofScientific 1 false 308) (exponent + 308)

/-- A float from its sign, significand and exponent. A size that was divided by `10 ^ 308`
four times is zero. -/
def floatOf? (negative : Bool) (significand : Nat) (exponent : Int) : Option Float :=
  (scale? 6 (Float.ofNat significand) exponent).map fun x => if negative then -x else x

/-- Takes digits into a sixty-four bit significand until the next one does not fit: the
significand, the number of digits taken, and what follows. -/
def takeDigits (significand taken : Nat) : List Char → Nat × Nat × List Char
  | [] => (significand, taken, [])
  | c :: cs =>
    match digit? c with
    | some d =>
      if 10 * significand + d < Nat.pow 2 64 then takeDigits (10 * significand + d) (taken + 1) cs
      else (significand, taken, c :: cs)
    | none => (significand, taken, c :: cs)

/-- The largest exponent that is read as written. -/
def exponentLimit : Nat := Nat.pow 2 31

/-- The rest of a number from its exponent mark on, if there is one. -/
def readExponent (negative : Bool) (significand : Nat) (exponent : Int) (cs : List Char) :
    Option (Float × List Char) :=
  match cs with
  | e :: rest =>
    if e == 'e' || e == 'E' then
      let (below, rest) := match rest with
        | '-' :: r => (true, r)
        | '+' :: r => (false, r)
        | r => (false, r)
      match rest.takeWhile Char.isDigit with
      | [] => none
      | ds =>
        let after := rest.dropWhile Char.isDigit
        let n := ds.foldl (fun n c => 10 * n + (c.toNat - 48)) 0
        if n < exponentLimit then
          (floatOf? negative significand (if below then exponent - n else exponent + n)).map
            (·, after)
        else if significand != 0 && !below then none
        else some (if negative then -0.0 else 0.0, after)
    else (floatOf? negative significand exponent).map (·, cs)
  | [] => (floatOf? negative significand exponent).map (·, cs)

/-- The rest of a number from its point on. Digits that no longer fit are passed over. -/
def readFraction (negative : Bool) (significand : Nat) (exponent : Int) (cs : List Char) :
    Option (Float × List Char) :=
  let (significand, taken, rest) := takeDigits significand 0 cs
  let overflow := rest.head?.any Char.isDigit
  if taken == 0 && !overflow then none
  else readExponent negative significand (exponent - taken) (rest.dropWhile Char.isDigit)

/-- A number, after its sign. -/
def readNumber (negative : Bool) (cs : List Char) : Option (Json × List Char) :=
  let (significand, taken, rest) := takeDigits 0 0 cs
  if taken == 0 || (cs.head? == some '0' && taken != 1) then none
  else
    let dropped := (rest.takeWhile Char.isDigit).length
    match rest.dropWhile Char.isDigit with
    | '.' :: after =>
      (readFraction negative significand dropped after).map fun (x, r) => (.float x, r)
    | after =>
      -- The negative zero is a float, and so is what lies below the least integer.
      let isInteger := dropped == 0 && !(after.head?.any fun c => c == 'e' || c == 'E')
      if isInteger && !(negative && (significand == 0 || Nat.pow 2 63 < significand)) then
        some (.int (if negative then -significand else significand), after)
      else (readExponent negative significand dropped after).map fun (x, r) => (.float x, r)

/-! ## Texts -/

/-- The number that the first four characters write in hexadecimal, and what follows. -/
def readUnit (cs : List Char) : Option (Nat × List Char) :=
  if cs.length < 4 then none
  else (Text.hexValue? (cs.take 4)).map (·, cs.drop 4)

/-- The character after `\u`: one unit, or a pair of surrogates. -/
def readEscapedChar (cs : List Char) : Option (Char × List Char) := do
  let (high, rest) ← readUnit cs
  if 0xd800 ≤ high ∧ high < 0xdc00 then
    match rest with
    | '\\' :: 'u' :: rest =>
      let (low, rest) ← readUnit rest
      if 0xdc00 ≤ low ∧ low < 0xe000 then
        some (Char.ofNat (0x10000 + (high - 0xd800) * 0x400 + (low - 0xdc00)), rest)
      else none
    | _ => none
  else if 0xdc00 ≤ high ∧ high < 0xe000 then none
  else some (Char.ofNat high, rest)

/-- The rest of a text up to its closing quote, and what follows the quote. -/
def readString : Nat → List Char → Option (List Char × List Char)
  | 0, _ => none
  | fuel + 1, cs =>
    match cs with
    | [] => none
    | '"' :: rest => some ([], rest)
    | '\\' :: 'u' :: rest => do
      let (c, rest) ← readEscapedChar rest
      let (s, after) ← readString fuel rest
      some (c :: s, after)
    | '\\' :: e :: rest => do
      let c ← match e with
        | '"' => some '"'
        | '\\' => some '\\'
        | '/' => some '/'
        | 'b' => some '\x08'
        | 'f' => some '\x0c'
        | 'n' => some '\n'
        | 'r' => some '\r'
        | 't' => some '\t'
        | _ => none
      let (s, after) ← readString fuel rest
      some (c :: s, after)
    | c :: rest =>
      if c.toNat < 0x20 || c == '\\' then none
      else do
        let (s, after) ← readString fuel rest
        some (c :: s, after)

/-! ## Documents -/

mutual

/-- A value at the start of a text, and what follows. -/
def readValue : Nat → Nat → List Char → Option (Json × List Char)
  | 0, _, _ => none
  | fuel + 1, depth, cs =>
    match skipSpace cs with
    | 'n' :: 'u' :: 'l' :: 'l' :: rest => some (.null, rest)
    | 't' :: 'r' :: 'u' :: 'e' :: rest => some (.bool true, rest)
    | 'f' :: 'a' :: 'l' :: 's' :: 'e' :: rest => some (.bool false, rest)
    | '"' :: rest => (readString (rest.length + 1) rest).map fun (s, r) =>
        (.str (String.ofList s), r)
    | '[' :: rest =>
      match depth, skipSpace rest with
      | 0, _ => none
      | _ + 1, ']' :: rest => some (.array [], rest)
      | depth + 1, rest => readItems fuel depth [] rest
    | '\x7b' :: rest =>
      match depth, skipSpace rest with
      | 0, _ => none
      | _ + 1, '\x7d' :: rest => some (.object [], rest)
      | depth + 1, rest => readMembers fuel depth [] rest
    | '-' :: rest => readNumber true rest
    | rest => readNumber false rest

/-- The rest of an array that goes on with an element; the elements so far are last
first. -/
def readItems : Nat → Nat → List Json → List Char → Option (Json × List Char)
  | 0, _, _, _ => none
  | fuel + 1, depth, items, cs => do
    let (v, rest) ← readValue fuel depth cs
    match skipSpace rest with
    | ',' :: rest => readItems fuel depth (v :: items) rest
    | ']' :: rest => some (.array (v :: items).reverse, rest)
    | _ => none

/-- The rest of an object that goes on with a member; the members so far are last first. -/
def readMembers : Nat → Nat → List (String × Json) → List Char → Option (Json × List Char)
  | 0, _, _, _ => none
  | fuel + 1, depth, members, cs =>
    match skipSpace cs with
    | '"' :: rest => do
      let (key, rest) ← readString (rest.length + 1) rest
      match skipSpace rest with
      | ':' :: rest => do
        let (v, rest) ← readValue fuel depth rest
        let members := (String.ofList key, v) :: members
        match skipSpace rest with
        | ',' :: rest => readMembers fuel depth members rest
        | '\x7d' :: rest => some (.object members.reverse, rest)
        | _ => none
      | _ => none
    | _ => none

end

/-- The document that a text is. -/
def ofText? (text : String) : Option Json :=
  let cs := text.toList
  match readValue (cs.length + 1) depthLimit cs with
  | some (v, rest) => if (skipSpace rest).isEmpty then some v else none
  | none => none

end Json

instance : JsonReader := ⟨Json.ofText?⟩

end Attest

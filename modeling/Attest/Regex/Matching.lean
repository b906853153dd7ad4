import Attest.Regex.Basic
/-!
# Searching a text

The places of a text of `n` characters are numbered from `0` to `n`; a set of places is a
natural number read as bits. `Expr.after` maps the places where a match may start to the
places where it may end, for all starts at once, so a search is one pass over the
expression. Repetition stops after as many rounds as there are places: no later round
reaches a new one.
-/

namespace Attest.Regex

/-- A text to search. -/
abbrev Haystack := Array Char

/-- The set of the places up to `n` that satisfy `p`. -/
def placesWhere (n : Nat) (p : Nat → Bool) : Nat :=
  (List.range (n + 1)).foldl (fun places i => if p i then places ||| (1 <<< i) else places) 0

/-- The places before a character of the set. -/
def Haystack.before (text : Haystack) (s : CharSet) : Nat :=
  placesWhere text.size fun i => (text[i]?).any s.mem

/-- The places where an assertion holds. -/
def Haystack.placesOf (text : Haystack) (a : Assertion) : Nat :=
  placesWhere text.size fun i => a.holds (if i = 0 then none else text[i - 1]?) text[i]?

/-- `f` applied `k` times, or fewer once nothing changes. -/
def iterate (f : Nat → Nat) : Nat → Nat → Nat
  | 0, places => places
  | k + 1, places => if f places = places then places else iterate f k (f places)

/-- The places where a match may end that starts in `places`. -/
def Expr.after (text : Haystack) : Expr → Nat → Nat
  | .empty, places => places
  | .set s, places => (places &&& text.before s) <<< 1
  | .assert a, places => places &&& text.placesOf a
  | .seq a b, places => b.after text (a.after text places)
  | .alt a b, places => a.after text places ||| b.after text places
  | .times least most e, places =>
    let rounds := text.size + 1
    let start := iterate (e.after text) (min least rounds) places
    let more := match most with
      | some m => min (m - least) rounds
      | none => rounds
    iterate (fun reached => reached ||| e.after text reached) more start

/-- Whether the expression matches somewhere in the text. -/
def Expr.isFound (e : Expr) (text : String) : Bool :=
  let haystack := text.toList.toArray
  e.after haystack (Nat.pow 2 (haystack.size + 1) - 1) != 0

end Attest.Regex

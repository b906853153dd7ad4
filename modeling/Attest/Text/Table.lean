/-!
# Tables keyed by ranges of numbers

A property of characters is written as a text: the points where it changes, in
increasing order. `Table.at?` finds the entry in force at a number by halving.
`hexValue?` reads the hexadecimal numbers such texts are made of.
-/

namespace Attest.Text

/-- The value of one hexadecimal digit, in either case. -/
def hexDigit? (c : Char) : Option Nat :=
  if '0' ≤ c ∧ c ≤ '9' then some (c.toNat - 48)
  else if 'a' ≤ c ∧ c ≤ 'f' then some (c.toNat - 87)
  else if 'A' ≤ c ∧ c ≤ 'F' then some (c.toNat - 55)
  else none

/-- The number written by hexadecimal digits; `none` for no digit or a stray one. -/
def hexValue? : List Char → Option Nat
  | [] => none
  | cs => cs.foldlM (fun n c => (hexDigit? c).map (16 * n + ·)) 0

/-- Entries sorted by the number at which each comes into force. -/
abbrev Table (α : Type) := Array (Nat × α)

namespace Table

variable {α : Type}

/-- The last entry of `table` between `lo` (included) and `hi` (excluded) that
starts at or before `n`; the entry at `lo` is taken to do so. -/
def search (table : Table α) (n lo hi : Nat) : Option α :=
  if _h : lo + 1 < hi then
    let mid := (lo + hi) / 2
    match table[mid]? with
    | some (start, _) => if start ≤ n then search table n mid hi else search table n lo mid
    | none => none
  else (table[lo]?).map (·.2)
termination_by hi - lo
decreasing_by all_goals omega

/-- The entry in force at `n`: the last one that starts at or before it. -/
def at? (table : Table α) (n : Nat) : Option α :=
  match table[0]? with
  | some (start, _) => if start ≤ n then search table n 0 table.size else none
  | none => none

end Table

/-- The words of a text, separated by spaces and line ends. -/
def words (text : String) : List (List Char) :=
  (text.toList.splitBy fun a b => a.isWhitespace == b.isWhitespace).filter fun word =>
    word.head?.any (!·.isWhitespace)

end Attest.Text

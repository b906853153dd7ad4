import Attest.Regex.Basic
/-!
# The size of a regular expression

Counted repetitions are stored as so many copies, so a short text can write an expression of
any size. The size is an estimate of the bytes that a matcher takes; expressions above a
fixed limit are refused.
-/

namespace Attest.Regex

/-- The bytes of one state of a matcher. -/
def stateSize : Nat := 32

/-- The size of a set of characters: one transition for each of its ranges, and a state for
each byte in the encoding of their ends. -/
def CharSet.size : CharSet → Nat
  | .none => stateSize
  | .range _ last => if last < 128 then stateSize + 8 else 4 * stateSize + 32
  | .blank => 12 * stateSize
  | .digit => 100 * stateSize
  | .word => 1500 * stateSize
  | .category _ => 250 * stateSize
  | .script _ => 60 * stateSize
  | .union a b | .inter a b | .diff a b | .symmDiff a b => a.size + b.size
  | .compl a | .anyCase a | .anyCaseAscii a => a.size + stateSize

/-- The size of an expression. -/
def Expr.size : Expr → Nat
  | .empty => stateSize
  | .set s => s.size
  | .assert _ => stateSize
  | .seq a b => a.size + b.size
  | .alt a b => a.size + b.size + 2 * stateSize
  | .times least none e => max least 1 * e.size + stateSize
  | .times least (some most) e => max least most * e.size + (most - least) * stateSize

/-- The largest size of an expression, in bytes. -/
def sizeLimit : Nat := 10 * Nat.pow 2 20

end Attest.Regex

import Attest.Decimal.Shortest
import Attest.Value.Basic
/-!
# The order of values

Values are ordered by kind, and within a kind by content. Equality of values is equality in
this order (`same`). The two float zeros are equal, a float that is no number equals itself
and comes after all others, functions are told apart by name and by where they were made,
patterns by kind and text, and collections element by element.
-/

namespace Attest

/-- Where a float stands among floats: the number that its bits make up, negative for a
negative float; what is no number stands above infinity. -/
def floatRank (x : Float) : Int :=
  if Decimal.exponentField x = 2047 ∧ Decimal.fractionField x ≠ 0 then Nat.pow 2 63
  else
    let size : Nat := x.toBits.toNat % Nat.pow 2 63
    if Decimal.isNegative x then -size else size

/-- The order of an absent and a present thing. -/
def compareSites : Option Site → Option Site → Ordering
  | none, none => .eq
  | none, some _ => .lt
  | some _, none => .gt
  | some a, some b => Ord.compare a b

/-- The order of functions. -/
def Fn.compare (f g : Fn) : Ordering :=
  (Ord.compare f.name g.name).then (compareSites f.site? g.site?)

/-- Whether a pattern is a glob, as a rank. -/
def PatternKind.rank : PatternKind → Nat
  | .regex => 0
  | .glob => 1

/-- The order of patterns. -/
def Pattern.compare (p q : Pattern) : Ordering :=
  (Ord.compare p.kind.rank q.kind.rank).then (Ord.compare p.source q.source)

mutual

/-- The order of values. -/
def Value.compare : Value → Value → Ordering
  | .bool a, .bool b => Ord.compare a b
  | .int a, .int b => Ord.compare a.toInt b.toInt
  | .float a, .float b => Ord.compare (floatRank a) (floatRank b)
  | .str a, .str b => Ord.compare a b
  | .keyword a, .keyword b => Ord.compare a b
  | .list a, .list b => compareItems a b
  | .set a, .set b => compareItems a b
  | .map a, .map b => compareEntries a b
  | .fn a, .fn b => a.compare b
  | .cls a, .cls b => a.compare b
  | .pattern a, .pattern b => a.compare b
  | .error a, .error b => a.compare b
  | a, b => Ord.compare a.kind.rank b.kind.rank

/-- The first difference decides; a list comes before its extensions. -/
def compareItems : List Value → List Value → Ordering
  | [], [] => .eq
  | [], _ :: _ => .lt
  | _ :: _, [] => .gt
  | a :: as, b :: bs => (a.compare b).then (compareItems as bs)

/-- Entry by entry, the key before the value. -/
def compareEntries : List (Value × Value) → List (Value × Value) → Ordering
  | [], [] => .eq
  | [], _ :: _ => .lt
  | _ :: _, [] => .gt
  | (k, v) :: as, (l, w) :: bs =>
    (k.compare l).then ((v.compare w).then (compareEntries as bs))

/-- By class name, then message, then data. -/
def Thrown.compare : Thrown → Thrown → Ordering
  | ⟨c, m, d⟩, ⟨c', m', d'⟩ =>
    (Ord.compare c.name c'.name).then ((Ord.compare m m').then (compareData d d'))

/-- Absent data comes first. -/
def compareData : Option Value → Option Value → Ordering
  | none, none => .eq
  | none, some _ => .lt
  | some _, none => .gt
  | some a, some b => a.compare b

end

instance : Ord Value := ⟨Value.compare⟩

/-- Equality of values: neither comes before the other. -/
def Value.same (a b : Value) : Bool := a.compare b == .eq

instance : BEq Value := ⟨Value.same⟩

theorem Value.beq_iff {a b : Value} : (a == b) = true ↔ a.compare b = .eq := by
  show (a.compare b == .eq) = true ↔ _
  exact beq_iff_eq

end Attest

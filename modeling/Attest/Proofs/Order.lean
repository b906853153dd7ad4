import Attest.Value.Collection
import Mathlib.Data.List.Chain
/-!
# Comparing values the other way round

Comparing two values the other way round gives the opposite (`Value.compare_swap`), kind by kind
and through everything that collections and errors hold. So the elements that a set is built
from end up in increasing order (`Elements.increasing_ofList`), and elements in increasing order
are a set as they stand (`Elements.ofList_eq_self`).
-/

namespace Attest

theorem Class.compare_swap (a b : Class) : b.compare a = (a.compare b).swap := by
  cases a <;> cases b <;> exact Std.OrientedOrd.eq_swap

theorem compareSites_swap (a b : Option Site) : compareSites b a = (compareSites a b).swap := by
  cases a with
  | none => cases b <;> rfl
  | some a =>
    cases b with
    | none => rfl
    | some b => exact Std.OrientedOrd.eq_swap

theorem Fn.compare_swap (f g : Fn) : g.compare f = (f.compare g).swap := by
  rw [Fn.compare, Fn.compare, Ordering.swap_then, compareSites_swap f.site?,
    Std.OrientedOrd.eq_swap (a := g.name)]

theorem Pattern.compare_swap (p q : Pattern) : q.compare p = (p.compare q).swap := by
  rw [Pattern.compare, Pattern.compare, Ordering.swap_then,
    Std.OrientedOrd.eq_swap (a := q.kind.rank), Std.OrientedOrd.eq_swap (a := q.source)]

namespace Value

/-- Values of different kinds are ordered by their kinds. -/
theorem compare_of_kind_ne {a b : Value} (h : a.kind ≠ b.kind) :
    a.compare b = Ord.compare a.kind.rank b.kind.rank := by
  rw [Value.compare.eq_def]
  split
  case h_13 => rfl
  all_goals exact absurd rfl h

end Value

mutual

/-- Comparing the other way round gives the opposite. -/
theorem Value.compare_swap (a b : Value) : b.compare a = (a.compare b).swap := by
  by_cases h : a.kind = b.kind
  · -- Of all pairs of kinds only the equal ones are left.
    cases a <;> cases b <;> try exact Kind.noConfusion h
    case nil.nil => simp [Value.compare]
    case bool.bool x y => rw [Value.compare, Value.compare, Std.OrientedOrd.eq_swap]
    case int.int x y => rw [Value.compare, Value.compare, Std.OrientedOrd.eq_swap]
    case float.float x y => rw [Value.compare, Value.compare, Std.OrientedOrd.eq_swap]
    case str.str x y => rw [Value.compare, Value.compare, Std.OrientedOrd.eq_swap]
    case keyword.keyword x y => rw [Value.compare, Value.compare, Std.OrientedOrd.eq_swap]
    case list.list x y => rw [Value.compare, Value.compare, compareItems_swap]
    case set.set x y => rw [Value.compare, Value.compare, compareItems_swap]
    case map.map x y => rw [Value.compare, Value.compare, compareEntries_swap]
    case fn.fn x y => rw [Value.compare, Value.compare, Fn.compare_swap]
    case cls.cls x y => rw [Value.compare, Value.compare, Class.compare_swap]
    case pattern.pattern x y => rw [Value.compare, Value.compare, Pattern.compare_swap]
    case error.error x y => rw [Value.compare, Value.compare, Thrown.compare_swap]
  · rw [Value.compare_of_kind_ne h, Value.compare_of_kind_ne (Ne.symm h), Std.OrientedOrd.eq_swap]

theorem compareItems_swap (as bs : List Value) : compareItems bs as = (compareItems as bs).swap := by
  cases as with
  | nil => cases bs <;> simp only [compareItems] <;> rfl
  | cons a as =>
    cases bs with
    | nil => simp only [compareItems]; rfl
    | cons b bs =>
      rw [compareItems, compareItems, Ordering.swap_then, Value.compare_swap a b,
        compareItems_swap as bs]

theorem compareEntries_swap (as bs : List (Value × Value)) :
    compareEntries bs as = (compareEntries as bs).swap := by
  match as, bs with
  | [], [] => simp only [compareEntries]; rfl
  | [], _ :: _ => simp only [compareEntries]; rfl
  | _ :: _, [] => simp only [compareEntries]; rfl
  | (k, v) :: as, (l, w) :: bs =>
    rw [compareEntries, compareEntries, Ordering.swap_then, Ordering.swap_then,
      Value.compare_swap k l, Value.compare_swap v w, compareEntries_swap as bs]

theorem Thrown.compare_swap (s t : Thrown) : t.compare s = (s.compare t).swap := by
  match s, t with
  | ⟨c, m, d⟩, ⟨c', m', d'⟩ =>
    rw [Thrown.compare, Thrown.compare, Ordering.swap_then, Ordering.swap_then,
      Std.OrientedOrd.eq_swap (a := c'.name), Std.OrientedOrd.eq_swap (a := m'),
      compareData_swap d d']

theorem compareData_swap (a b : Option Value) : compareData b a = (compareData a b).swap := by
  match a, b with
  | none, none => simp only [compareData]; rfl
  | none, some _ => simp only [compareData]; rfl
  | some _, none => simp only [compareData]; rfl
  | some a, some b => rw [compareData, compareData, Value.compare_swap a b]

end

namespace Elements

/-- Each element comes before the one after it. -/
def Increasing (xs : List Value) : Prop := xs.IsChain fun a b => a.compare b = .lt

/-- Elements in increasing order are a set as they stand. -/
theorem ofList_eq_self {xs : List Value} (h : Increasing xs) : ofList xs = xs := by
  induction xs with
  | nil => rfl
  | cons x xs ih =>
    have hxs : ofList xs = xs := ih h.of_cons
    rw [ofList, List.foldr_cons, ← ofList, hxs]
    cases xs with
    | nil => rfl
    | cons y ys =>
      have hxy : x.compare y = .lt := (List.isChain_cons_cons.1 h).1
      rw [insert, hxy]

/-- The first element after one is added is the new one or the old first one. -/
theorem head_insert {x y : Value} {ys : List Value} (h : (insert x ys).head? = some y) :
    y = x ∨ ys.head? = some y := by
  cases ys with
  | nil => exact .inl (by simpa [insert] using h.symm)
  | cons z zs =>
    rw [insert] at h
    split at h
    · exact .inl (by simpa using h.symm)
    · exact .inr h
    · exact .inr h

theorem increasing_insert {x : Value} {ys : List Value} (h : Increasing ys) :
    Increasing (insert x ys) := by
  induction ys with
  | nil => exact .singleton x
  | cons y ys ih =>
    rw [insert]
    split
    · next hxy => exact .cons_cons hxy h
    · exact h
    · next hxy =>
      have hyx : y.compare x = .lt := by rw [Value.compare_swap x y, hxy]; rfl
      -- Behind `y` comes `x` first, or what did so far.
      refine List.isChain_cons.2 ⟨fun z hz => ?_, ih h.of_cons⟩
      rcases head_insert hz with rfl | hz
      · exact hyx
      · exact (List.isChain_cons.1 h).1 z hz

/-- The elements of a set built from a list increase. -/
theorem increasing_ofList (xs : List Value) : Increasing (ofList xs) := by
  induction xs with
  | nil => exact .nil
  | cons x xs ih => exact increasing_insert ih

theorem mem_of_mem_insert {x y : Value} {ys : List Value} (h : y ∈ insert x ys) :
    y = x ∨ y ∈ ys := by
  induction ys with
  | nil => exact .inl (by simpa [insert] using h)
  | cons z zs ih =>
    rw [insert] at h
    split at h
    · exact List.mem_cons.1 h
    · exact .inr h
    · rcases List.mem_cons.1 h with rfl | h
      · exact .inr List.mem_cons_self
      · exact (ih h).imp_right (List.mem_cons_of_mem z)

/-- A set built from a list has no elements but those of the list. -/
theorem mem_of_mem_ofList {y : Value} {xs : List Value} (h : y ∈ ofList xs) : y ∈ xs := by
  induction xs with
  | nil => exact h
  | cons x xs ih =>
    rcases mem_of_mem_insert h with rfl | h
    · exact List.mem_cons_self
    · exact List.mem_cons_of_mem _ (ih h)

end Elements

end Attest

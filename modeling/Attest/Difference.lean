import Attest.Value.Collection
import Attest.Value.Text
/-!
# Differences of values

What an expected value has and an actual one lacks, and the reverse. Maps are compared key
by key and lists position by position, down to a limited number of levels; below them, and
where the kinds differ, a difference is the whole value. In lists `nil` stands for the
positions that agree, and none is kept at the end.
-/

namespace Attest

/-- The texts of what was expected and is missing, and of what was not expected. -/
structure Difference where
  removed : Option String
  added : Option String
  deriving DecidableEq, Repr

/-- What only the expected value has, and what only the actual one has. -/
abbrev Sides := Option Value × Option Value

namespace Sides

/-- The list of what differs position by position; `nil` stands where nothing does. -/
def listSide (items : List (Option Value)) : Option Value :=
  match ((items.map (·.getD .nil)).reverse.dropWhile Value.isNil).reverse with
  | [] => none
  | items => some (.list items)

/-- The map of what differs key by key. -/
def mapSide (entries : List (Value × Value)) : Option Value :=
  match entries with
  | [] => none
  | entries => some (.map entries)

/-- Compares two lists position by position. A position that one list lacks differs. -/
def positions (sides : Value → Value → Sides) : List Value → List Value → List Sides
  | [], actual => actual.map fun a => (none, some a)
  | expected, [] => expected.map fun e => (some e, none)
  | e :: es, a :: as => sides e a :: positions sides es as

/-- The entries of an expected map that an actual map lacks, or what is left of them. -/
def removedEntries (sides : Value → Value → Sides) (expected actual : List (Value × Value)) :
    List (Value × Value) :=
  expected.filterMap fun (key, e) =>
    match Entries.find? actual key with
    | none => some (key, e)
    | some a => (sides e a).1.map (key, ·)

/-- What an actual map has under the keys of an expected map and should not. -/
def changedEntries (sides : Value → Value → Sides) (expected actual : List (Value × Value)) :
    List (Value × Value) :=
  expected.filterMap fun (key, e) =>
    (Entries.find? actual key).bind fun a => (sides e a).2.map (key, ·)

/-- The entries of an actual map whose keys are not expected. -/
def newEntries (expected actual : List (Value × Value)) : List (Value × Value) :=
  actual.filter fun (key, _) => !Entries.contains expected key

end Sides

open Sides in
/-- The two sides of the difference of two values, looking into so many levels. -/
def Value.sides : Nat → Value → Value → Sides
  | levels, expected, actual =>
    if expected == actual then (none, none)
    else
      match levels, expected, actual with
      | levels + 1, .map e, .map a =>
        (mapSide (removedEntries (sides levels) e a),
          mapSide (Entries.putAll (changedEntries (sides levels) e a) (newEntries e a)))
      | levels + 1, .list e, .list a =>
        let both := positions (sides levels) e a
        (listSide (both.map (·.1)), listSide (both.map (·.2)))
      | _, expected, actual => (some expected, some actual)

/-- How many levels of maps and lists are looked into. -/
def Difference.levels : Nat := 2

/-- The difference of two values. -/
def Difference.structural (expected actual : Value) : Difference :=
  let (removed, added) := expected.sides levels actual
  ⟨removed.map Value.render, added.map Value.render⟩

end Attest

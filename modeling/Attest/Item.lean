import Attest.Check.Strategy
import Attest.Defect
import Attest.Elevation
/-!
# Items

Expanding an assertion yields items: checks to be run, searches of a collection, and events
of combinators whose own input was thrown. A search is put off until it runs; then every
element is expanded and checked on its own, and the events are elevated. Searching a map is
one comparison between the expected map and what the map has under its keys.
-/

namespace Attest

/-- A computation that may find a defect. -/
abbrev Checking (α : Type) := Run Defect α

/-- What an assertion is expanded to. -/
inductive Item where
  | check (c : Check)
  /-- Something in a collection, the subject of the check, has to match; `each` is the check
  of one element. -/
  | search (c : Check) (each : Engine → Check → Checking (List Event))
  /-- The input of a combinator was thrown. -/
  | broken (e : Event)

/-- What is to be searched: one thing after the other, or what is under some keys. -/
inductive Searched where
  | elements (items : List Value)
  | entries (under : List (Value × Value))

/-- What there is to search in a value. -/
def Searched.ofValue : Value → Except Defect Searched
  | .map under => .ok (.entries under)
  | .list items => .ok (.elements items)
  | .set items => .ok (.elements items)
  | v => .error (.notACollection v)

namespace Search

/-- The events of all elements, in order. -/
def eventsOf (each : Check → Checking (List Event)) (c : Check) :
    List Value → Checking (List Event)
  | [] => pure []
  | v :: vs => do
    let first ← each { c with subject := .outcome (.ok v), site := c.site.part 0 }
    let rest ← eventsOf each c vs
    pure (first ++ rest)

/-- What a map has under the keys of another one. -/
def projection (keys entries : List (Value × Value)) : List (Value × Value) :=
  keys.filterMap fun (key, _) => (Entries.find? entries key).map (key, ·)

/-- The check that a map has the expected entries; what it has besides does not count. -/
def entriesCheck (c : Check) (expected entries : List (Value × Value)) : Check :=
  { c with
    expected := .lit (.map expected)
    subject := .outcome (.ok (.map (projection expected entries)))
    label := some c.expectedText }

/-- Searches a map. -/
def runEntries (c : Check) (engine : Engine) (entries : List (Value × Value)) :
    Checking Event := do
  match ← Run.attempt (c.expected.evalAt c.site.expected c.scope) with
  | .error t => pure (c.thrownEvent t)
  | .ok (.map expected) => (entriesCheck c expected entries).run engine
  | .ok other => Run.raise (.notAMap other)

/-- Searches a collection. -/
def run (c : Check) (each : Check → Checking (List Event)) (engine : Engine) :
    Checking (List Event) := do
  match ← c.outcome with
  | .error t => pure [c.thrownEvent t]
  | .ok collection =>
    match ← Run.ofExcept (Searched.ofValue collection) with
    | .elements items => return elevate (← eventsOf each c items)
    | .entries under => return [← runEntries c engine under]

end Search

namespace Item

/-- The events of an item. -/
def run (engine : Engine) : Item → Checking (List Event)
  | check c => do return [← c.run engine]
  | search c each => Search.run c (each engine) engine
  | broken e => pure [e]

/-- The events of items, in order. -/
def runAll (engine : Engine) : List Item → Checking (List Event)
  | [] => pure []
  | item :: rest => do
    let first ← item.run engine
    let others ← runAll engine rest
    pure (first ++ others)

end Item

end Attest

import Attest.Eval.Basic
/-!
# Schemas

A schema accepts a value or gives the reason why it does not. A registry holds schemas under
names, in the order of the names and each name once; a validator is what checks ask.
-/

namespace Attest

/-- A rule that values can satisfy. -/
inductive Schema where
  /-- Accepts the instances of a class. -/
  | instances (c : Class)
  /-- Accepts maps with an instance of a class under each of some keywords. -/
  | keys (required : List (String × Class))
  /-- Accepts what a function answers with something true; `reason` is told otherwise. -/
  | test (f : Value) (reason : String)

namespace Schema

/-- Why a map does not have what is required under its keywords, if so. -/
def missingKey? (entries : List (Value × Value)) : List (String × Class) → Option String
  | [] => none
  | (name, c) :: required =>
    let key := Value.keyword name
    match Entries.find? entries key with
    | none => some ("missing required key " ++ key.render)
    | some v =>
      if c.isInstance v then missingKey? entries required
      else some (key.render ++ " is not an instance of " ++ c.name)

/-- Why a schema does not accept a value, if so. A test that throws does not accept it. -/
def refusal? {ε : Type} (schema : Schema) (site : Site) (v : Value) : Run ε (Option String) :=
  match schema, v with
  | instances c, v => pure (if c.isInstance v then none else some ("not an instance of " ++ c.name))
  | keys required, .map entries => pure (missingKey? entries required)
  | keys _, _ => pure (some "not a map")
  | test f reason, v => do
    match ← Run.attempt (f.applyAt site [v]) with
    | .ok answer => pure (if answer.isTruthy then none else some reason)
    | .error t => pure (some t.render)

end Schema

/-- What a check asks about schemas. Asking may run code, at the place given. -/
structure Validator where
  isRegistered : String → Bool
  /-- Whether the schema of a name accepts a value. -/
  validate : Site → String → Value → Run Empty Bool
  /-- Why it does not. -/
  explain : Site → String → Value → Run Empty String

/-- Schemas under names, in increasing order of the names. -/
abbrev Registry := List (String × Schema)

namespace Registry

/-- A registry with a schema under a name; an earlier one under that name goes. -/
def add (name : String) (schema : Schema) : Registry → Registry
  | [] => [(name, schema)]
  | (n, s) :: rest =>
    match compare name n with
    | .lt => (name, schema) :: (n, s) :: rest
    | .eq => (name, schema) :: rest
    | .gt => (n, s) :: add name schema rest

/-- The schema under a name. -/
def find? (registry : Registry) (name : String) : Option Schema :=
  (List.find? (·.1 == name) registry).map (·.2)

/-- The text of the names. -/
def render (registry : Registry) : String := braced (registry.map fun (name, _) => Text.quoted name)

/-- Whether the schema of a name is there and accepts a value. -/
def accepts {ε : Type} (registry : Registry) (site : Site) (name : String) (v : Value) :
    Run ε Bool := do
  match registry.find? name with
  | none => pure false
  | some schema => return (← schema.refusal? site v).isNone

/-- What there is to say about a value and the schema of a name. -/
def explanation {ε : Type} (registry : Registry) (site : Site) (name : String) (v : Value) :
    Run ε String := do
  match registry.find? name with
  | none => pure ("unknown schema :" ++ name)
  | some schema =>
    match ← schema.refusal? site v with
    | none => pure "Success!"
    | some reason => pure (v.render ++ " - failed: " ++ reason ++ " spec: :" ++ name)

/-- The validator of a registry. -/
def validator (registry : Registry) : Validator where
  isRegistered name := (registry.find? name).isSome
  validate := registry.accepts
  explain := registry.explanation

end Registry

end Attest

import Attest.Eval.Call
/-!
# Evaluation

`eval` gives a form its value in a scope and `apply` calls a value with arguments. Both
take a limit on how deeply evaluation may nest, and the place at which they are. One step
of each (`Form.step`, `Value.callStep`) is written over the other steps, so that every rule
of the language can be read on its own.

The parts of a list are evaluated at places below the list's own: its operands, counting
the head as number zero, below `Site.operands`, and the body that a call or a `let` runs
below `Site.body`. A value threaded into the first place of a step is evaluated where the
first argument of the step would be, so threading and nesting are the same computation.
-/

namespace Attest

namespace Site

/-- The place below which the operands of a list are evaluated. -/
def operands (site : Site) : Site := site.at 0

/-- The place of a call, and below it of the body that runs. -/
def body (site : Site) : Site := site.at 1

/-- The place of a value that is threaded into the last place. -/
def threaded (site : Site) : Site := site.at 2

end Site

/-- How forms are evaluated from inside a form. -/
abbrev Evaluator := Site → Scope → Form → Eval Value

/-- Evaluates forms from the first to the last, form `i` at the place `i`. -/
def evalItems (ev : Evaluator) (site : Site) (scope : Scope) :
    Nat → List Form → Eval (List Value)
  | _, [] => pure []
  | i, f :: fs => do
    let v ← ev (site.at i) scope f
    let vs ← evalItems ev site scope (i + 1) fs
    pure (v :: vs)

/-- Evaluates the entries of a map from the first to the last and puts them into a map. -/
def evalEntries (ev : Evaluator) (site : Site) (scope : Scope) :
    Nat → List (Value × Value) → List (Form × Form) → Eval (List (Value × Value))
  | _, done, [] => pure done
  | i, done, (k, v) :: rest => do
    let key ← ev (site.at i) scope k
    let value ← ev (site.at (i + 1)) scope v
    evalEntries ev site scope (i + 2) (Entries.put key value done) rest

/-- Evaluates forms from the first to the last; the last value counts, `nil` if there is
none. -/
def evalBody (ev : Evaluator) (site : Site) (scope : Scope) (i : Nat) (forms : List Form) :
    Eval Value := do
  let values ← evalItems ev site scope i forms
  pure (values.getLast?.getD .nil)

/-- Throws an error about arguments. -/
def refuse {α : Type} (message : String) : Eval α := Run.raise (.argument message)

/-- A conditional. -/
def evalIf (ev : Evaluator) (site : Site) (scope : Scope) (args : List Form) : Eval Value :=
  let branch (test yes : Form) (no : Option Form) : Eval Value := do
    let c ← ev (site.operands.at 1) scope test
    if c.isTruthy then ev (site.operands.at 2) scope yes
    else match no with
      | some form => ev (site.operands.at 3) scope form
      | none => pure .nil
  match args with
  | [test, yes] => branch test yes none
  | [test, yes, no] => branch test yes (some no)
  | _ => refuse ("if expects 2 or 3 arguments, got " ++ toString args.length)

/-- The scope after bindings made one after the other, each seeing the earlier ones; the
`i`-th value is evaluated at the place `i`. -/
def evalBindings (ev : Evaluator) (site : Site) :
    Nat → List (Form × Form) → Scope → Eval Scope
  | _, [], scope => pure scope
  | i, (target, value) :: rest, scope => do
    match Binding.parse target with
    | .error e => refuse e.message
    | .ok b =>
      let v ← ev (site.at i) scope value
      let scope ← Run.ofExcept (b.bind v scope)
      evalBindings ev site (i + 1) rest scope

/-- Local bindings around a body. -/
def evalLet (ev : Evaluator) (site : Site) (scope : Scope) : List Form → Eval Value
  | .vector bindings :: forms =>
    match pairUp? bindings with
    | some pairs => do
      let scope ← evalBindings ev site.operands 1 pairs scope
      evalBody ev site.body scope 0 forms
    | none => refuse "let requires an even number of forms in its binding vector"
  | _ => refuse "let requires a binding vector"

/-- A function of parameters and a body. -/
def evalFn (site : Site) (scope : Scope) : List Form → Eval Value
  | [] => refuse "fn requires a parameter vector"
  | .vector params :: forms =>
    match Binding.parse (.vector params) with
    | .ok b => pure (.fn (.closure site b forms scope))
    | .error e => refuse e.message
  | params :: _ => refuse ("fn parameters must be a vector, got " ++ params.render)

/-- Whether a symbol names a threading operator. -/
def isThreading (name : String) : Bool := name.endsWith "->" || name.endsWith "->>"

/-- How a threading operator works. -/
structure Threading where
  /-- The value becomes the last argument and not the first. -/
  last : Bool
  /-- Nothing more is done once the value is `nil`. -/
  stopsAtNil : Bool

/-- How the threading operator of a given name works. -/
def Threading.ofName (name : String) : Threading :=
  ⟨name.endsWith "->>", name.startsWith "some"⟩

/-- The form that applies a step to a value: a list gets it as a further argument, any
other step is called with it alone. -/
def threadStep (step : Form) (value : Value) (last : Bool) : Form :=
  match step with
  | .list (head :: args) =>
    if last then .list (head :: args ++ [.lit value]) else .list (head :: .lit value :: args)
  | step => .list [step, .lit value]

/-- The places of the steps, each with the place where the value threaded into it is
evaluated: a step is computed where its value is threaded on. The first component is the
place of the initial value. -/
def stepSites (site : Site) (last : Bool) : List Form → Site × List (Form × Site)
  | [] => (site, [])
  | step :: rest =>
    let (out, placed) := stepSites site last rest
    (if last then out.threaded else out.operands.at 1, (step, out) :: placed)

/-- Runs a value through the steps. -/
def evalSteps (ev : Evaluator) (scope : Scope) (t : Threading) :
    Value → List (Form × Site) → Eval Value
  | acc, [] => pure acc
  | acc, (step, site) :: rest => do
    if t.stopsAtNil && acc.isNil then pure .nil
    else
      -- What was computed goes on as a literal, so it is not evaluated again.
      let acc ← ev site scope (threadStep step acc t.last)
      evalSteps ev scope t acc rest

/-- A threading form. -/
def evalThread (ev : Evaluator) (site : Site) (scope : Scope) (op : String) :
    List Form → Eval Value
  | [] => refuse (op ++ " requires an initial value")
  | first :: steps => do
    let t := Threading.ofName op
    let (start, placed) := stepSites site t.last steps
    let acc ← ev start scope first
    evalSteps ev scope t acc placed

/-- A call: the head, then the arguments, then the function itself. -/
def evalCall (ev : Evaluator) (call : Builtin.Caller) (site : Site) (scope : Scope)
    (head : Form) (args : List Form) : Eval Value := do
  let f ← ev (site.operands.at 0) scope head
  let values ← evalItems ev site.operands scope 1 args
  call site.body f values

/-- A list that is not empty. Four names make special forms wherever they lead a list, and
a threading operator does unless its name is bound. -/
def evalList (ev : Evaluator) (call : Builtin.Caller) (site : Site) (scope : Scope)
    (head : Form) (args : List Form) : Eval Value :=
  match head with
  | .sym "do" => evalBody ev site.operands scope 1 args
  | .sym "if" => evalIf ev site scope args
  | .sym "let" => evalLet ev site scope args
  | .sym "fn" => evalFn site scope args
  | .sym name =>
    -- A bound name is called like any other function.
    if isThreading name && (scope.lookup name).isNone then evalThread ev site scope name args
    else evalCall ev call site scope head args
  | _ => evalCall ev call site scope head args

/-- One step of evaluation. -/
def Form.step (ev : Evaluator) (call : Builtin.Caller) (site : Site) (scope : Scope) :
    Form → Eval Value
  | .lit v => pure v
  | .sym name =>
    match scope.lookup name with
    | some v => pure v
    | none => Run.raise (.lookup ("unable to resolve symbol: " ++ name))
  | .vector items => do return .list (← evalItems ev site scope 0 items)
  | .map entries => do return .map (← evalEntries ev site scope 0 [] entries)
  | .list [] => pure (.list [])
  | .list (head :: args) => evalList ev call site scope head args

/-- Calls a function made by a function form. -/
def callClosure (ev : Evaluator) (site : Site) (params : Binding) (forms : List Form)
    (scope : Scope) (args : List Value) : Eval Value := do
  match params.arity? with
  | some n =>
    if args.length = n then
      let scope ← Run.ofExcept (params.bind (.list args) scope)
      evalBody ev site scope 0 forms
    else Run.raise (.arity args.length n)
  | none =>
    let scope ← Run.ofExcept (params.bind (.list args) scope)
    evalBody ev site scope 0 forms

/-- One step of a call. Keywords, maps and sets are called as look-ups. -/
def Value.callStep (ev : Evaluator) (call : Builtin.Caller) (site : Site) (f : Value)
    (args : List Value) : Eval Value :=
  match f, args with
  | .fn (.builtin b), args => b.call call site args
  | .fn (.probe p), args => p.call args
  | .fn (.constantly _ v), _ => pure v
  | .fn (.closure _ params forms scope), args => callClosure ev site params forms scope args
  | .keyword _, [target] => pure (keywordIn target .nil)
  | .keyword _, [target, default] => pure (keywordIn target default)
  | .map entries, [key] => pure ((Entries.find? entries key).getD .nil)
  | .map entries, [key, default] => pure ((Entries.find? entries key).getD default)
  | .set items, [x] => pure (if Elements.contains items x then x else .nil)
  | .keyword _, args | .map _, args | .set _, args => Run.raise (.arity args.length 1)
  | f, _ => refuse (f.typeName ++ " is not callable: " ++ f.render)
where
  /-- What a map holds under the keyword being called; other values hold nothing. -/
  keywordIn (target default : Value) : Value :=
    match target with
    | .map entries => (Entries.find? entries f).getD default
    | _ => default

mutual

/-- The value of a form in a scope. -/
def eval : Nat → Site → Scope → Form → Eval Value
  | 0, _, _, _ => Run.exhausted
  | depth + 1, site, scope, form => form.step (eval depth) (apply depth) site scope

/-- The result of calling a value with arguments. -/
def apply : Nat → Site → Value → List Value → Eval Value
  | 0, _, _, _ => Run.exhausted
  | depth + 1, site, f, args => f.callStep (eval depth) (apply depth) site args

end

/-- How deeply evaluation may nest. -/
def nestingLimit : Nat := Nat.pow 2 20

/-- The value of a form in a scope, at a place. -/
def Form.evalAt (form : Form) (site : Site) (scope : Scope) : Eval Value :=
  eval nestingLimit site scope form

/-- The result of calling a value, at a place. -/
def Value.applyAt (f : Value) (site : Site) (args : List Value) : Eval Value :=
  apply nestingLimit site f args

end Attest

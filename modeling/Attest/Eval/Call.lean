import Attest.Binding
import Attest.Eval.Number
import Attest.Pairs
import Attest.Run
import Attest.Text.Upper
/-!
# Calling the standard functions

Most functions compute their result from their arguments alone (`Builtin.compute`). The
three that call a function given to them, the one that makes a function, and the one that
makes as long a list as it is told to, need the computation around them (`Builtin.call`):
`map`, `filter` and `reduce` go through their elements from the first to the last, each call
at its own place, and `range` stops where there is no room for its list.
-/

namespace Attest

/-- The elements of a value, or the error about a value that has none. -/
def Value.elements (v : Value) : Except Thrown (List Value) :=
  match v.elements? with
  | some items => .ok items
  | none =>
    .error (.argument ("don't know how to iterate over " ++ v.typeName ++ ": " ++ v.render))

/-- The only argument, or the error about a wrong number of them. -/
def single : List Value → Except Thrown Value
  | [x] => .ok x
  | args => .error (.arity args.length 1)

/-- The element of a list at an integer position, if it is there. -/
def elementAt? (items : List Value) (index : Int64) : Option Value :=
  if 0 ≤ index.toInt then items[index.toInt.toNat]? else none

/-- What a collection holds under a key, or else a given value. A set answers with the key
itself. -/
def lookUp (target key default : Value) : Value :=
  match target, key with
  | .map entries, key => (Entries.find? entries key).getD default
  | .list items, .int i => (elementAt? items i).getD default
  | .set items, key => if Elements.contains items key then key else default
  | _, _ => default

/-- Whether a collection holds something under a key. -/
def holdsKey (target key : Value) : Bool :=
  match target, key with
  | .map entries, key => Entries.contains entries key
  | .set items, key => Elements.contains items key
  | .list items, .int i => (elementAt? items i).isSome
  | _, _ => false

/-- A collection with further elements. -/
def conjoin (target : Value) (more : List Value) : Outcome :=
  match target with
  | .set items => .ok (.set (Elements.insertAll items more))
  | .nil => .ok (.list more)
  | .list items => .ok (.list (items ++ more))
  | v => .error (.argument ("cannot conj onto " ++ v.render))

/-- A map with further entries put one by one. -/
def associate : List Value → Outcome
  | .map entries :: pairs =>
    match pairUp? pairs with
    | some more => .ok (.map (Entries.putAll entries more))
    | none => .error (.argument "assoc expects key/value pairs")
  | _ => .error (.argument "assoc expects a map")

/-- How many elements a list can have that is made at once: an element takes fifty-six bytes,
and together they have to take less than half of what a word of sixty-four bits can count. -/
def listCapacity : Nat := (Nat.pow 2 63 - 1) / 56

/-- How many integers there are from one up to, but not including, another. -/
def rangeLength (first stop : Int64) : Nat := (stop.toInt - first.toInt).toNat

/-- The integers from one up to, but not including, another. -/
def rangeFrom (first stop : Int64) : List Value :=
  (List.range (rangeLength first stop)).map fun (i : Nat) => .int (Int64.ofInt (first.toInt + i))

/-- Makes the list of the integers from one up to another. Its length is known beforehand, so
nothing is made if there is no room for it. -/
def makeRange (first stop : Int64) : Eval Value :=
  if rangeLength first stop ≤ listCapacity then pure (.list (rangeFrom first stop))
  else Run.stop (.room (rangeLength first stop))

/-- The keys or values of a map; `nil` has none. -/
def entriesPart (function : String) (part : Value × Value → Value) : Value → Outcome
  | .map entries => .ok (.list (entries.map part))
  | .nil => .ok .nil
  | v => .error (.argument (function ++ " expects a map, got " ++ v.render))

/-- The text that a value adds to a text made of several; `nil` adds nothing. -/
def joinedText (v : Value) : String := if v.isNil then "" else v.stringForm

namespace Builtin

/-- The result of a function that needs nothing but its arguments. -/
def compute (b : Builtin) (args : List Value) : Outcome :=
  match b with
  | add => sum args
  | sub => difference args
  | mul => product args
  | div =>
    match args with
    | [x, y] => quotient x y
    | _ => .error (.arity args.length 2)
  | inc => do
    let x ← single args
    sum [x, .int 1]
  | dec => do
    let x ← single args
    difference [x, .int 1]
  | compare c => c.apply args
  | test p => do
    let x ← single args
    pure (.bool (p.holds x))
  | equal => .ok (.bool (chain (· == ·) args))
  | get =>
    match args with
    | [target, key] => .ok (lookUp target key .nil)
    | [target, key, default] => .ok (lookUp target key default)
    | _ => .error (.arity args.length 2)
  | nth =>
    match args with
    | [target, .int index] => do
      let items ← target.elements
      match elementAt? items index with
      | some v => pure v
      | none =>
        .error (.lookup ("index " ++ toString index.toInt ++ " out of bounds for " ++
          target.render))
    | _ => .error (.argument "nth expects a collection and an integer index")
  | getIn =>
    match args with
    | [target, .list path] => .ok (path.foldl (fun v key => lookUp v key .nil) target)
    | _ => .error (.argument "get-in expects a value and a key vector")
  | count => do
    let items ← (← single args).elements
    pure (.int (Int64.ofInt items.length))
  | first => do
    let items ← (← single args).elements
    pure (items.head?.getD .nil)
  | last => do
    let items ← (← single args).elements
    pure (items.getLast?.getD .nil)
  | rest => do
    let items ← (← single args).elements
    pure (.list items.tail)
  | reverse => do
    let items ← (← single args).elements
    pure (.list items.reverse)
  | sort => do
    let items ← (← single args).elements
    pure (.list (sortValues items))
  | keys => do entriesPart "keys" (·.1) (← single args)
  | vals => do entriesPart "vals" (·.2) (← single args)
  | contains =>
    match args with
    | [target, key] => .ok (.bool (holdsKey target key))
    | _ => .error (.arity args.length 2)
  | conj =>
    match args with
    | target :: more => conjoin target more
    | [] => .error (.arity 0 2)
  | assoc => associate args
  | vector | list => .ok (.list args)
  | hashSet => .ok (.setOf args)
  | set => do
    let items ← (← single args).elements
    pure (.setOf items)
  | hashMap =>
    match pairUp? args with
    | some entries => .ok (.mapOf entries)
    | none => .error (.argument "hash-map expects key/value pairs")
  | range => .error (.argument "range expects one or two integers")
  | identity => single args
  | str => .ok (.str (String.join (args.map joinedText)))
  | upperCase => do
    match ← single args with
    | .str s => pure (.str (Text.upperCase s))
    | v => .error (.argument ("upper-case expects a string, got " ++ v.render))
  | type => do return .cls (← single args).typeOf
  | isInstance =>
    match args with
    | [.cls c, v] => .ok (.bool (c.isInstance v))
    | _ => .error (.argument "instance? expects a class and a value")
  | exInfo =>
    match args with
    | [.str message] => .ok (.error ⟨.info, message, none⟩)
    | [.str message, data] => .ok (.error ⟨.info, message, some data⟩)
    | _ => .error (.argument "ex-info expects a message and optional data")
  | error =>
    match args with
    | [.cls (.error c), .str message] => .ok (.error ⟨c, message, none⟩)
    | _ => .error (.argument "error expects an error class and a message")
  | throw => do
    match ← single args with
    | .error t => .error t
    | v => .error (.argument ("cannot throw a non-error value: " ++ v.render))
  | exMessage => do
    match ← single args with
    | .error t => pure (.str t.message)
    | _ => pure .nil
  | exData => do
    match ← single args with
    | .error t => pure (t.data.getD .nil)
    | _ => pure .nil
  | map | filter | reduce => .error (.arity args.length 2)
  | constantly => single args

/-- How functions are called from inside a function. -/
abbrev Caller := Site → Value → List Value → Eval Value

/-- Calls a function on each element; element `i` at the place `first + i`. -/
def mapFrom (apply : Caller) (site : Site) (f : Value) : Nat → List Value → Eval (List Value)
  | _, [] => pure []
  | i, x :: xs => do
    let y ← apply (site.at i) f [x]
    let ys ← mapFrom apply site f (i + 1) xs
    pure (y :: ys)

/-- The elements for which a function's result counts as true. -/
def filterFrom (apply : Caller) (site : Site) (f : Value) : Nat → List Value → Eval (List Value)
  | _, [] => pure []
  | i, x :: xs => do
    let y ← apply (site.at i) f [x]
    let ys ← filterFrom apply site f (i + 1) xs
    pure (if y.isTruthy then x :: ys else ys)

/-- Combines elements from the left. -/
def reduceFrom (apply : Caller) (site : Site) (f : Value) : Nat → Value → List Value → Eval Value
  | _, acc, [] => pure acc
  | i, acc, x :: xs => do
    let acc ← apply (site.at i) f [acc, x]
    reduceFrom apply site f (i + 1) acc xs

/-- Calls a standard function at a place. -/
def call (apply : Caller) (site : Site) (b : Builtin) (args : List Value) : Eval Value :=
  match b, args with
  | map, [f, coll] => do
    let items ← Run.ofExcept coll.elements
    return .list (← mapFrom apply site f 0 items)
  | filter, [f, coll] => do
    let items ← Run.ofExcept coll.elements
    return .list (← filterFrom apply site f 0 items)
  | reduce, [f, coll] => do
    let items ← Run.ofExcept coll.elements
    reduceFrom apply site f 0 (items.head?.getD .nil) items.tail
  | reduce, [f, start, coll] => do
    let items ← Run.ofExcept coll.elements
    reduceFrom apply site f 0 start items
  | constantly, [v] => pure (.fn (.constantly site v))
  | range, [.int stop] => makeRange 0 stop
  | range, [.int start, .int stop] => makeRange start stop
  | b, args => Run.ofExcept (b.compute args)

end Builtin

/-- Calls a host's function: it notes its call and answers. -/
def Probe.call (p : Probe) (args : List Value) : Eval Value :=
  match p with
  | trace => do
    Run.note (spaced (args.map Value.render))
    pure (args.getLast?.getD .nil)
  | host site name answers => do
    let n ← Run.countCall site
    Run.note (name ++ " " ++ toString n)
    Run.ofExcept (answers n (args.map Value.render))

end Attest
